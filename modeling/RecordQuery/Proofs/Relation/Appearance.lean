import RecordQuery.Proofs.Relation.SemiJoin

namespace RecordQuery

open PlannedLink

namespace Projection

theorem identity_showRoot (projection : Projection) (record shown : Record) :
    (projection.showRoot record shown).identity = shown.identity := by
  unfold showRoot
  split
  · apply Record.foldl_identity
    exact fun shown entry => rfl
  · apply Record.foldl_identity
    intro shown column
    split <;> rfl
  · split <;> rfl

theorem identity_showLink (record : Record) (aliasName : String) (selection : Selection)
    (shown : Record) : (showLink record aliasName selection shown).identity = shown.identity := by
  unfold showLink
  split
  · apply Record.foldl_identity
    exact fun shown entry => rfl
  · apply Record.foldl_identity
    intro shown column
    dsimp only
    split <;> rfl
  · rfl

theorem identity_project (projection : Projection) (record : Record) :
    (projection.project record).identity = record.identity := by
  have hroot := projection.identity_showRoot record ⟨record.entity, record.id, .empty⟩
  refine Eq.trans ?_ hroot
  apply Record.foldl_identity
  exact fun shown link => identity_showLink record link.1 link.2 shown

end Projection

namespace Link

theorem withKind_kind (link : Link) (kind : JoinKind) :
    (link.withKind kind).withKind link.kind = link := by
  cases link
  rfl

end Link

namespace Context

variable {context : Context} {query : Query} {plan : Plan} {before after : List Link} {link : Link}

theorem exists_identity_run {result : QueryResult}
    (hplan : Plan.ofQuery context.catalog query = .ok plan) (hwhole : Whole query)
    (hrun : context.run query = .ok result) :
    ∃ criteria relation,
      query.criteria.compile context plan.aliases (.root query.entity) = .ok criteria ∧
      context.matchingRows plan criteria = .ok relation ∧
      ∀ identity, (∃ shown ∈ result.records, shown.identity = identity) ↔
        ∃ row ∈ relation.records, row.identity = identity := by
  obtain ⟨criteria, relation, keys, projection, hcriteria, hrelation, -, -, rfl⟩ :=
    run_rows hplan hrun hwhole.aggregate
  refine ⟨criteria, relation, hcriteria, hrelation, fun identity => ?_⟩
  have hperm := (Relation.sort_perm keys relation).map projection.project
  rw [hwhole.records_paged]
  constructor
  · rintro ⟨shown, hshown, rfl⟩
    obtain ⟨row, hrow, rfl⟩ := List.mem_map.mp (hperm.mem_iff.mp hshown)
    exact ⟨row, hrow, (projection.identity_project row).symm⟩
  · rintro ⟨row, hrow, rfl⟩
    exact ⟨_, hperm.mem_iff.mpr (List.mem_map_of_mem hrow), projection.identity_project row⟩

structure PlainNames (context : Context) (query : Query) : Prop where
  stored : ∀ record ∈ context.store.rows, ∀ name ∈ record.attributes.names,
    Record.isQualified name = false
  ids : ∀ entity ∈ query.entity :: (Link.withinAll query.links).map (·.entity), ∀ name,
    context.catalog.primaryId entity = .ok name → Record.isQualified name = false
  aliases : ∀ plan, Plan.ofQuery context.catalog query = .ok plan →
    ∀ entry ∈ plan.aliases, Record.isQualified entry.1 = false
  criteria : ∀ condition ∈ query.criteria.conditionsWithin,
    Record.isQualified condition.column = false
  links : ∀ link ∈ Link.withinAll query.links, Record.isQualified link.source = false ∧
    Record.isQualified link.target = false ∧
    ∀ condition ∈ link.filter.conditionsWithin, Record.isQualified condition.column = false

theorem mem_within_withKind {kind : JoinKind} {other : Link}
    (h : other ∈ Link.withinAll (before ++ link.withKind kind :: after)) :
    ∃ same ∈ Link.withinAll (before ++ link :: after), other.source = same.source ∧
      other.target = same.target ∧ other.filter = same.filter := by
  simp only [Link.withinAll_append, Link.withinAll, Link.within_eq, List.mem_append,
    List.mem_cons] at h ⊢
  rcases h with h | (rfl | h) | h
  · exact ⟨other, Or.inl h, rfl, rfl, rfl⟩
  · exact ⟨link, Or.inr (Or.inl (Or.inl rfl)), rfl, rfl, rfl⟩
  · exact ⟨other, Or.inr (Or.inl (Or.inr h)), rfl, rfl, rfl⟩
  · exact ⟨other, Or.inr (Or.inr h), rfl, rfl, rfl⟩

section Parts

variable (parts : Plan.Parts context.catalog query before link after)
  (hdetached : Detached query before link after)

theorem mem_within_of_steps {kind : JoinKind} {step : Step}
    (hstep : step ∈ (parts.planned.withKind kind).steps none) :
    ∃ same ∈ link.within, step.link.filter = same.filter := by
  have hplanned := @Plan.planLink_withKind context.catalog query.entity parts.middle link kind
  rw [parts.planLink] at hplanned
  have hmem := List.mem_map_of_mem (f := Step.link) hstep
  rw [Plan.planLink_steps none _ hplanned, Link.within_eq] at hmem
  rw [Link.within_eq]
  rcases List.mem_cons.mp hmem with hself | hinner
  · exact ⟨link, List.mem_cons_self, by rw [hself]; rfl⟩
  · exact ⟨step.link, List.mem_cons_of_mem _ hinner, rfl⟩

theorem mem_withinAll_of_steps {step : Step}
    (hstep : step ∈ stepsAll none (parts.first ++ parts.last)) :
    step.link ∈ Link.withinAll (before ++ after) := by
  rw [Link.withinAll_append, ← Plan.planLinks_steps none before parts.planFirst,
    ← Plan.planLinks_steps none after parts.planLast, ← List.map_append, ← stepsAll_append]
  exact List.mem_map_of_mem hstep

include hdetached

theorem mem_others (hlinks : plan.links = parts.first ++ parts.planned :: parts.last)
    {name entity : String} (hname : name ∈ (query.withLinks (before ++ after)).mentions)
    (hentity : AliasMap.entity plan.aliases name = .ok entity) :
    name ∈ (aliasesAll (parts.first ++ parts.last)).map Prod.fst := by
  have hmem : name ∈ plan.aliases.map Prod.fst := by
    by_contra hnone
    rw [AliasMap.entity, Record.lookup_eq_none hnone] at hentity
    contradiction
  have hunused : name ∉ parts.planned.aliases.map Prod.fst :=
    fun hown => hdetached.unused name ((parts.aliases_perm hdetached.named).mem_iff.mp hown) hname
  rw [Plan.aliases, hlinks] at hmem
  simp only [aliasesAll_append, aliasesAll, List.map_append, List.mem_append] at hmem ⊢
  tauto

theorem criteria_reads (hplain : PlainNames context query)
    (hlinks : plan.links = parts.first ++ parts.planned :: parts.last) :
    query.criteria.Reads plan.aliases ((aliasesAll (parts.first ++ parts.last)).map Prod.fst) := by
  intro condition hcondition
  refine ⟨hplain.criteria condition hcondition, fun aliasName hmem entity hentity => ?_⟩
  apply mem_others parts hdetached hlinks _ hentity
  exact List.mem_append_left _ (List.mem_append_left _
    (List.mem_flatMap.mpr ⟨condition, hcondition, hmem⟩))

theorem secluded (hplain : PlainNames context query)
    (hfilters : ∀ inner ∈ link.within, ∀ condition ∈ inner.filter.conditionsWithin,
      condition.Unqualified)
    (hplan : Plan.ofQuery context.catalog query = .ok plan)
    (hlinks : plan.links = parts.first ++ parts.planned :: parts.last) (kind : JoinKind) :
    Secluded context plan.aliases parts.first (parts.planned.withKind kind) parts.last := by
  have hlink : parts.planned.link = link := (Plan.planLink_cases parts.planLink).2.2.1
  have hplanKind := parts.ofQuery_withKind hplan kind
  have haliases : aliasesAll (parts.first ++ parts.planned.withKind kind :: parts.last) =
      plan.aliases := aliases_withKind hlinks kind
  have hsteps : ∀ step ∈ stepsAll none (parts.first ++ parts.planned.withKind kind :: parts.last),
      ∃ same ∈ Link.withinAll query.links, step.link.source = same.source ∧
        step.link.target = same.target ∧ step.link.filter = same.filter := by
    intro step hstep
    rw [hdetached.links]
    exact mem_within_withKind (mem_within_of_step hplanKind step hstep)
  have hmemLink : link ∈ Link.withinAll query.links := by
    rw [hdetached.links, Link.withinAll_append, Link.withinAll, Link.within_eq]
    simp
  constructor
  · rw [haliases]
    intro name hname
    obtain ⟨entry, hentry, rfl⟩ := List.mem_map.mp hname
    exact hplain.aliases plan hplan entry hentry
  · rw [haliases]
    exact Plan.aliases_nodup hplan
  · intro step hstep
    obtain ⟨same, hsame, hsource, -, -⟩ := hsteps step hstep
    rw [hsource]
    exact (hplain.links same hsame).1
  · rw [PlannedLink.withKind, hlink]
    exact (hplain.links link hmemLink).2.1
  · intro right hright
    obtain ⟨primaryId, hid, rfl⟩ := map_eq_ok_iff.mp hright
    rw [PlannedLink.withKind, hlink] at hid
    exact Relation.scan_plain hplain.stored (hplain.ids link.entity
      (List.mem_cons_of_mem _ (List.mem_map_of_mem hmemLink)) primaryId hid)
  · intro step hstep condition hcondition
    obtain ⟨same, hsame, hfilter⟩ := mem_within_of_steps parts hstep
    rw [hfilter] at hcondition
    refine ⟨?_, hfilters same hsame condition hcondition⟩
    apply (hplain.links same _).2.2 condition hcondition
    rw [hdetached.links, Link.withinAll_append, Link.withinAll]
    exact List.mem_append_right _ (List.mem_append_left _ hsame)
  · intro step hstep condition hcondition
    have hmem := mem_withinAll_of_steps parts hstep
    refine ⟨(hplain.links step.link ?_).2.2 condition hcondition,
      fun aliasName hname entity hentity => ?_⟩
    · rw [hdetached.links]
      rw [Link.withinAll_append] at hmem ⊢
      rw [Link.withinAll]
      rcases List.mem_append.mp hmem with hmem | hmem
      · exact List.mem_append_left _ hmem
      · exact List.mem_append_right _ (List.mem_append_right _ hmem)
    · apply mem_others parts hdetached hlinks _ hentity
      exact List.mem_append_right _ (List.mem_flatMap.mpr ⟨step.link, hmem,
        List.mem_append_left _ (List.mem_flatMap.mpr ⟨condition, hcondition, hname⟩)⟩)

end Parts

theorem exists_plan_of_withKind {kind : JoinKind} (hlinks : query.links = before ++ link :: after)
    (hplan : Plan.ofQuery context.catalog
      (query.withLinks (before ++ link.withKind kind :: after)) = .ok plan) :
    ∃ plan, Plan.ofQuery context.catalog query = .ok plan := by
  obtain ⟨parts, -⟩ := Plan.exists_parts rfl hplan
  have hquery : query.withLinks (before ++ link :: after) = query := by
    rw [Query.withLinks, ← hlinks]
  have hback := parts.ofQuery_withKind hplan link.kind
  rw [Link.withKind_kind] at hback
  rw [← hquery]
  exact ⟨_, hback⟩

/-- The records that appear in the answer are the same under an inner link and under the link that
asks for any, if all conditions inside of the link are about columns of their own entities. -/
theorem run_any_iff_inner {first second : QueryResult}
    (hdetached : Detached query before link after)
    (hwhole : Whole query) (hplain : PlainNames context query)
    (hfilters : ∀ inner ∈ link.within, ∀ condition ∈ inner.filter.conditionsWithin,
      condition.Unqualified)
    (hany : context.run (query.withLinks (before ++ link.withKind .any :: after)) = .ok first)
    (hinner : context.run (query.withLinks (before ++ link.withKind .inner :: after)) = .ok second)
    (record : Record) :
    (∃ shown ∈ first.records, shown.identity = record.identity) ↔
      ∃ shown ∈ second.records, shown.identity = record.identity := by
  obtain ⟨_, hplanAny, -⟩ := bind_eq_ok_iff.mp hany
  obtain ⟨plan, hplan⟩ := exists_plan_of_withKind hdetached.links hplanAny
  obtain ⟨parts, hlinks⟩ := Plan.exists_parts hdetached.links hplan
  obtain ⟨criteria, relation, hcriteria, hrelation, hfirst⟩ :=
    exists_identity_run (parts.ofQuery_withKind hplan .any) (hwhole.withLinks _) hany
  obtain ⟨criteria', other, hcriteria', hother, hsecond⟩ :=
    exists_identity_run (parts.ofQuery_withKind hplan .inner) (hwhole.withLinks _) hinner
  have haliases := aliases_withKind hlinks .any
  rw [aliases_withKind hlinks] at hcriteria'
  rw [haliases] at hcriteria
  obtain rfl := Except.ok.inj (hcriteria.symm.trans hcriteria')
  have hsecluded := secluded parts hdetached hplain hfilters hplan hlinks .any
  rw [← haliases] at hsecluded
  have halike := (criteria_reads parts hdetached hplain hlinks).alike
    (Settled.outside hsecluded.apart)
    (fun name hname => ⟨Record.outside_of_plain hname _, rfl⟩) hcriteria
  rw [hfirst, hsecond]
  apply matchingRows_any_iff rfl rfl hsecluded halike _ hrelation hother
  obtain ⟨hroot, hid, -⟩ := Plan.ofQuery_spec hplan
  exact Relation.scan_plain hplain.stored
    (hplain.ids query.entity List.mem_cons_self plan.primaryId hid)

theorem plainNames_staffed : PlainNames (staffed (.int 3)) (withIdentified .any none) := by
  constructor
  · decide
  · intro entity hentity name hname
    rcases List.mem_cons.mp hentity with rfl | hentity
    · obtain rfl : "accountid" = name := Except.ok.inj hname
      decide
    · obtain rfl := List.mem_singleton.mp hentity
      obtain rfl : "contactid" = name := Except.ok.inj hname
      decide
  · intro plan hplan
    obtain rfl := Except.ok.inj hplan
    decide
  · decide
  · decide

theorem run_any_iff_inner_staffed :
    ∃ first second,
      (staffed (.int 3)).run (withIdentified .any none) = .ok first ∧
      (staffed (.int 3)).run (withIdentified .inner none) = .ok second ∧
      first.records.map (·.identity) = [("account", .ofNat 1), ("account", .ofNat 2)] ∧
      second.records.length = 3 ∧
      (∃ shown ∈ second.records, shown.identity = ("account", .ofNat 1)) ∧
      ¬ ∃ shown ∈ second.records, shown.identity = ("account", .ofNat 3) := by
  have hdetached : Detached (withIdentified .any none) [] (toIdentified .any none) [] :=
    ⟨rfl, by decide, by decide⟩
  have hfilters : ∀ inner ∈ (toIdentified .any none).within,
      ∀ condition ∈ inner.filter.conditionsWithin, condition.Unqualified := by
    intro inner hinner condition hcondition
    obtain rfl := List.mem_singleton.mp hinner
    obtain rfl := List.mem_singleton.mp hcondition
    exact ⟨rfl, by simp⟩
  obtain ⟨first, hany, hfirst⟩ : ∃ first,
      (staffed (.int 3)).run (withIdentified .any none) = .ok first ∧
        first.records.map (·.identity) = [("account", .ofNat 1), ("account", .ofNat 2)] :=
    ⟨_, rfl, by decide⟩
  obtain ⟨second, hinner, hsecond⟩ : ∃ second,
      (staffed (.int 3)).run (withIdentified .inner none) = .ok second ∧
        second.records.length = 3 := ⟨_, rfl, rfl⟩
  have hiff := run_any_iff_inner hdetached ⟨rfl, rfl, rfl, rfl⟩ plainNames_staffed hfilters hany
    hinner
  have hshown : ∀ record : Record,
      (∃ shown ∈ second.records, shown.identity = record.identity) ↔
        record.identity ∈ [("account", Uuid.ofNat 1), ("account", .ofNat 2)] := by
    intro record
    rw [← hiff, ← hfirst, List.mem_map]
  refine ⟨first, second, hany, hinner, hfirst, hsecond, ?_, ?_⟩
  · exact (hshown ⟨"account", .ofNat 1, .empty⟩).mpr (by decide)
  · exact fun h => absurd ((hshown ⟨"account", .ofNat 3, .empty⟩).mp h) (by decide)

end Context

end RecordQuery
