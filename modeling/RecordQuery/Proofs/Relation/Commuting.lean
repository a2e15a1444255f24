import RecordQuery.Proofs.Relation.Calmness
import RecordQuery.Proofs.Relation.Opposite

/-!
Existential links among their siblings. Such a link looks at a column of the row that no sibling
touches, and adds nothing to the row, so that it keeps the same rows wherever it stands. What a
change of its place can bring about is a row that is looked at and was not before.
-/

namespace RecordQuery

universe u

/-- The second step has the answer of the first one, unless it faults, which it may under the
condition. -/
def Repeats {α : Type u} (may : Prop) (first second : Except Error α) : Prop :=
  ∀ a, first = .ok a → second = .ok a ∨ may ∧ second = .error .overflow

namespace Repeats

variable {α β : Type u} {may : Prop}

theorem refl (first : Except Error α) : Repeats may first first :=
  fun _ ha => Or.inl ha

theorem mono {may' : Prop} {first second : Except Error α} (h : Repeats may first second)
    (himp : may → may') : Repeats may' first second :=
  fun a ha => (h a ha).imp_right fun hfault => ⟨himp hfault.1, hfault.2⟩

theorem bind {first second : Except Error α} {next after : α → Except Error β}
    (h : Repeats may first second) (hnext : ∀ a, Repeats may (next a) (after a)) :
    Repeats may (first >>= next) (second >>= after) := by
  intro b hb
  obtain ⟨a, ha, hb⟩ := bind_eq_ok_iff.mp hb
  rcases h a ha with hsecond | ⟨hmay, hfault⟩
  · rw [hsecond, ok_bind]
    exact hnext a b hb
  · rw [hfault]
    exact Or.inr ⟨hmay, rfl⟩

end Repeats

theorem Record.linked_congr {row record : Record} {column : String}
    (h : row.get? column = record.get? column) (right : List Record) (rightColumn : String) :
    Relation.linked right column rightColumn row =
      Relation.linked right column rightColumn record := by
  unfold Relation.linked linksTo keyAt?
  rw [h]

namespace Pointwise

variable {names others : List String}
  {run next : Relation → List Predicate → Except Error (Relation × List Predicate)}
  {faulty nextFaulty : Record → Bool} {rows nextRows : Record → List Record}
  {added : List String} {waiting : List Predicate}

theorem repeats (h : Pointwise names run faulty rows added waiting)
    (hnext : Pointwise others next nextFaulty nextRows added waiting)
    (hrows : ∀ record, nextRows record = rows record) (relation : Relation)
    (deferred : List Predicate) {may : Prop}
    (hmay : next relation deferred = .error .overflow → may) :
    Repeats may (run relation deferred) (next relation deferred) := by
  intro answer hanswer
  rw [h.run_eq] at hanswer
  rw [hnext.run_eq] at hmay ⊢
  split at hanswer
  · contradiction
  · split
    · rename_i hfault
      rw [if_pos hfault] at hmay
      exact Or.inr ⟨hmay rfl, rfl⟩
    · rw [← hanswer, funext hrows]
      exact Or.inl rfl

end Pointwise

namespace Link

structure Separate (parent? : Option String) (links : List Link) : Prop where
  named : ∀ link ∈ withinAll links, link.alias?.isSome = true
  nodup : (explicitAliasesAll links).Nodup
  plain : ∀ name ∈ explicitAliasesAll links, Record.isQualified name = false
  sources : ∀ link ∈ withinAll links, Record.isQualified link.source = false
  parent : ∀ name, parent? = some name →
    Record.isQualified name = false ∧ name ∉ explicitAliasesAll links

theorem mem_explicitAliasesAll_of_merged {links : List Link} {name : String}
    (hnamed : ∀ link ∈ withinAll links, link.alias?.isSome = true)
    (h : name ∈ (PlannedLink.mergedAll (PlannedLink.asGivenAll links)).map (·.aliasName)) :
    name ∈ explicitAliasesAll links := by
  have hmem := PlannedLink.merged_subset _ h
  rw [PlannedLink.aliasesAll_asGivenAll, List.map_map, List.mem_map] at hmem
  obtain ⟨link, hlink, rfl⟩ := hmem
  rw [explicitAliasesAll_eq, List.mem_filterMap]
  obtain ⟨aliasName, halias⟩ := Option.isSome_iff_exists.mp (hnamed link hlink)
  exact ⟨link, hlink, by simp [halias]⟩

namespace Separate

variable {parent? : Option String} {links others : List Link} {link : Link}

theorem apart (h : Separate parent? links)
    (hsubset : withinAll (link :: others) ⊆ withinAll links) :
    ∀ aliasName ∈ (PlannedLink.mergedAll (PlannedLink.asGivenAll others)).map (·.aliasName), ∀ name,
      Accessor.qualifiedBy parent? link.source ≠ Record.qualify aliasName name := by
  have hlink : link ∈ withinAll links := hsubset (by simp [withinAll, within_eq])
  have hothers : withinAll others ⊆ withinAll links :=
    fun other hother => hsubset (List.mem_append_right _ hother)
  intro aliasName hmem name heq
  have hgiven :=
    mem_explicitAliasesAll_of_merged (fun link hlink => h.named link (hothers hlink)) hmem
  have hknown : aliasName ∈ explicitAliasesAll links := by
    rw [explicitAliasesAll_eq, List.mem_filterMap] at hgiven ⊢
    obtain ⟨sibling, hsibling, halias⟩ := hgiven
    exact ⟨sibling, hothers hsibling, halias⟩
  cases parent? with
  | none =>
    have hplain := h.sources link hlink
    rw [show link.source = Record.qualify aliasName name from heq,
      Record.isQualified_qualify] at hplain
    contradiction
  | some parent =>
    obtain ⟨hparent, hnot⟩ := h.parent parent rfl
    obtain rfl := Record.qualify_left_injective hparent (h.plain aliasName hknown) heq
    exact hnot hknown

theorem inside {before after : List Link} (h : Separate parent? (before ++ link :: after)) :
    Separate none link.links ∧ Separate (some (link.alias?.getD link.entity)) link.links := by
  have hlink : link ∈ withinAll (before ++ link :: after) := by
    simp [withinAll_append, withinAll, within_eq]
  have hsubset : withinAll link.links ⊆ withinAll (before ++ link :: after) := by
    intro inner hinner
    simp [withinAll_append, withinAll, within_eq, hinner]
  obtain ⟨aliasName, halias⟩ := Option.isSome_iff_exists.mp (h.named link hlink)
  have hexplicit : explicitAliasesAll link.links ⊆
      explicitAliasesAll (before ++ link :: after) := by
    rw [explicitAliasesAll_eq, explicitAliasesAll_eq]
    exact List.filterMap_subset _ hsubset
  have hown : link.explicitAliases = aliasName :: explicitAliasesAll link.links := by
    rw [explicitAliases_eq, within_eq, List.filterMap_cons_some halias, explicitAliasesAll_eq]
  have hnodup : (aliasName :: explicitAliasesAll link.links).Nodup := by
    have hall := h.nodup
    rw [explicitAliasesAll_append, explicitAliasesAll, hown] at hall
    exact (List.nodup_append.mp (List.nodup_append.mp hall).2.1).1
  obtain ⟨hnot, hnodup⟩ := List.nodup_cons.mp hnodup
  have hinside : ∀ parent : Option String, (∀ name, parent = some name →
      Record.isQualified name = false ∧ name ∉ explicitAliasesAll link.links) →
      Separate parent link.links := fun parent hparent =>
    ⟨fun inner hinner => h.named inner (hsubset hinner), hnodup,
      fun name hname => h.plain name (hexplicit hname),
      fun inner hinner => h.sources inner (hsubset hinner), hparent⟩
  refine ⟨hinside none (fun name hname => nomatch hname), hinside _ ?_⟩
  intro name hname
  rw [halias, Option.getD_some] at hname
  obtain rfl := Option.some.inj hname
  refine ⟨h.plain aliasName ?_, hnot⟩
  rw [explicitAliasesAll_eq, List.mem_filterMap]
  exact ⟨link, hlink, halias⟩

end Separate

end Link

namespace Context

open PlannedLink (asGiven asGivenAll asGiven_eq asGivenAll_append mergedAll)

variable {context : Context} {aliases : AliasMap}

theorem joinLink_keeps {parent? : Option String} {relation : Relation} {deferred : List Predicate}
    {answer : Relation × List Predicate} {planned : PlannedLink}
    (hexistential : planned.link.kind.isExistential = true)
    (h : context.joinLink aliases parent? relation deferred planned = .ok answer) :
    ∃ (faulty keep : Record → Bool), Pointwise []
        (fun below others => context.joinLink aliases parent? below others planned) faulty
        (fun record => if keep record then [record] else []) [] [] ∧
      ∀ row record : Record, row.get? (Accessor.qualifiedBy parent? planned.link.source) =
        record.get? (Accessor.qualifiedBy parent? planned.link.source) → keep row = keep record := by
  obtain ⟨aliasName, link, children⟩ := planned
  rw [joinLink_existential _ _ _ _ _ _ hexistential] at h
  obtain ⟨right, hright, h⟩ := bind_eq_ok_iff.mp h
  obtain ⟨predicate, hpredicate, h⟩ := bind_eq_ok_iff.mp h
  obtain ⟨⟨linked, inner⟩, hlinked, -⟩ := bind_eq_ok_iff.mp h
  simp only [joinLink_existential _ _ _ _ _ _ hexistential, hright, hpredicate, hlinked, ok_bind]
  refine ⟨_, _, Pointwise.existsJoin linked link.kind _ _ _, ?_⟩
  intro row record hsame
  rw [Record.linked_congr hsame]

theorem joinLinks_concat (parent? : Option String) (relation : Relation)
    (deferred : List Predicate) (links : List PlannedLink) (planned : PlannedLink) :
    context.joinLinks aliases parent? relation deferred (links ++ [planned]) = (do
      let (joined, waiting) ← context.joinLinks aliases parent? relation deferred links
      context.joinLink aliases parent? joined waiting planned) := by
  rw [joinLinks_append]
  congr 1
  funext ⟨joined, waiting⟩
  simp only [joinLinks]
  cases context.joinLink aliases parent? joined waiting planned <;> rfl

section Swap

variable {parent? : Option String} {link : Link} {siblings : List Link}
  (hexistential : link.kind.isExistential = true)
  (hapart : ∀ aliasName ∈ (mergedAll (asGivenAll siblings)).map (·.aliasName), ∀ name,
    Accessor.qualifiedBy parent? link.source ≠ Record.qualify aliasName name)
  (relation : Relation) (deferred : List Predicate)

include hexistential hapart

theorem repeats_swapped {before after : Relation} {earlier later : List Predicate}
    {answer : Relation × List Predicate}
    (hlink : context.joinLink aliases parent? before earlier (asGiven link) = .ok answer)
    {joined : Relation} {waiting : List Predicate}
    (hsiblings : context.joinLinks aliases parent? after later (asGivenAll siblings) =
      .ok (joined, waiting)) {may : Prop} :
    ((context.joinLinks aliases parent? relation deferred (asGivenAll siblings ++ [asGiven link]) =
        .error .overflow → may) →
      Repeats may
        (context.joinLinks aliases parent? relation deferred (asGivenAll (link :: siblings)))
        (context.joinLinks aliases parent? relation deferred
          (asGivenAll siblings ++ [asGiven link]))) ∧
    ((context.joinLinks aliases parent? relation deferred (asGivenAll (link :: siblings)) =
        .error .overflow → may) →
      Repeats may
        (context.joinLinks aliases parent? relation deferred (asGivenAll siblings ++ [asGiven link]))
        (context.joinLinks aliases parent? relation deferred (asGivenAll (link :: siblings)))) := by
  have hkind : (asGiven link).link.kind.isExistential = true := by
    rw [asGiven_eq]
    exact hexistential
  obtain ⟨faultyLink, keep, hkeep, hcongr⟩ := joinLink_keeps hkind hlink
  obtain ⟨faultySiblings, rows, added, filters, hrows⟩ := joinLinks_pointwise _ hsiblings
  have hfirst := hkeep.seq hrows
  have hlast := hrows.seq hkeep
  simp only [List.nil_append] at hfirst
  simp only [List.append_nil] at hlast
  -- the siblings leave the column as it is, so that all rows of a record are kept or none
  have hsame : ∀ record, (rows record).flatMap (fun row => if keep row then [row] else []) =
      (if keep record then [record] else []).flatMap rows := by
    intro record
    have hcolumn : ∀ row ∈ rows record, keep row = keep record := by
      intro row hrow
      apply hcongr
      rw [asGiven_eq]
      exact hrows.frame record row hrow _ hapart
    rw [List.flatMap_congr fun row hrow => by rw [hcolumn row hrow]]
    cases keep record <;> simp
  rw [asGivenAll, joinLinks_concat, joinLinks]
  exact ⟨hfirst.repeats hlast hsame relation deferred,
    hlast.repeats hfirst (fun record => (hsame record).symm) relation deferred⟩

theorem joinLinks_swap :
    Repeats (¬ Link.Calm (link :: siblings))
        (context.joinLinks aliases parent? relation deferred (asGivenAll (link :: siblings)))
        (context.joinLinks aliases parent? relation deferred
          (asGivenAll siblings ++ [asGiven link])) ∧
      Repeats (¬ Link.Calm (link :: siblings))
        (context.joinLinks aliases parent? relation deferred
          (asGivenAll siblings ++ [asGiven link]))
        (context.joinLinks aliases parent? relation deferred (asGivenAll (link :: siblings))) := by
  have hlinkCalm : Link.Calm (link :: siblings) → Link.Calm [link] :=
    fun hcalm => hcalm.of_subset (by simp [Link.withinAll])
  have hsiblingsCalm : Link.Calm (link :: siblings) → Link.Calm siblings :=
    fun hcalm => hcalm.of_subset (by simp [Link.withinAll])
  constructor
  · intro answer hanswer
    have hboth := hanswer
    rw [asGivenAll, joinLinks] at hboth
    obtain ⟨⟨kept, waiting⟩, hlink, hsiblings⟩ := bind_eq_ok_iff.mp hboth
    refine (repeats_swapped hexistential hapart relation deferred hlink hsiblings).1 ?_ answer hanswer
    intro hfault hcalm
    obtain ⟨⟨first, filters⟩, hfirst⟩ :=
      joinLinks_calm siblings (hsiblingsCalm hcalm) hsiblings relation deferred
    obtain ⟨last, hlast⟩ := joinLink_calm link (hlinkCalm hcalm) hlink first filters
    simp only [joinLinks_concat, hfirst, ok_bind, hlast] at hfault
    contradiction
  · intro answer hanswer
    have hboth := hanswer
    rw [joinLinks_concat] at hboth
    obtain ⟨⟨joined, waiting⟩, hsiblings, hlink⟩ := bind_eq_ok_iff.mp hboth
    refine (repeats_swapped hexistential hapart relation deferred hlink hsiblings).2 ?_ answer hanswer
    intro hfault hcalm
    obtain ⟨⟨first, filters⟩, hfirst⟩ :=
      joinLink_calm link (hlinkCalm hcalm) hlink relation deferred
    obtain ⟨last, hlast⟩ :=
      joinLinks_calm siblings (hsiblingsCalm hcalm) hsiblings first filters
    simp only [asGivenAll, joinLinks, hfirst, ok_bind, hlast] at hfault
    contradiction

end Swap

theorem joinLink_withLinks {link : Link} {links : List Link} {may : Prop}
    (hnone : ∀ relation deferred, Repeats may
      (context.joinLinks aliases none relation deferred (asGivenAll link.links))
      (context.joinLinks aliases none relation deferred (asGivenAll links)))
    (hsome : ∀ relation deferred, Repeats may
      (context.joinLinks aliases (some (link.alias?.getD link.entity)) relation deferred
        (asGivenAll link.links))
      (context.joinLinks aliases (some (link.alias?.getD link.entity)) relation deferred
        (asGivenAll links)))
    (parent? : Option String) (relation : Relation) (deferred : List Predicate) :
    Repeats may (context.joinLink aliases parent? relation deferred (asGiven link))
      (context.joinLink aliases parent? relation deferred
        (asGiven { link with links := links })) := by
  obtain ⟨source, entity, target, kind, alias?, columns, filter, orders, inner⟩ := link
  rw [asGiven, asGiven]
  rcases kind.merges_or_isExistential with rfl | rfl | hkind
  · rw [joinLink_inner _ _ _ _ _ _ rfl, joinLink_inner _ _ _ _ _ _ rfl]
    apply (Repeats.refl _).bind
    intro right
    apply (Repeats.refl _).bind
    intro waiting
    exact hsome _ _
  · rw [joinLink_leftOuter _ _ _ _ _ _ rfl, joinLink_leftOuter _ _ _ _ _ _ rfl]
    apply (Repeats.refl _).bind
    intro right
    apply (Repeats.refl _).bind
    intro predicate
    apply (Repeats.refl _).bind
    intro admitted
    apply (Repeats.refl _).bind
    intro waiting
    exact hsome _ _
  · rw [joinLink_existential _ _ _ _ _ _ hkind, joinLink_existential _ _ _ _ _ _ hkind]
    apply (Repeats.refl _).bind
    intro right
    apply (Repeats.refl _).bind
    intro predicate
    apply (hnone _ _).bind
    intro linked
    exact Repeats.refl _

theorem joinLinks_among {link : Link} (hexistential : link.kind.isExistential = true)
    (before siblings after : List Link) {parent? : Option String}
    (hapart : ∀ aliasName ∈ (mergedAll (asGivenAll siblings)).map (·.aliasName), ∀ name,
      Accessor.qualifiedBy parent? link.source ≠ Record.qualify aliasName name)
    (relation : Relation) (deferred : List Predicate) :
    Repeats (¬ Link.Calm (link :: siblings))
        (context.joinLinks aliases parent? relation deferred
          (asGivenAll (before ++ link :: (siblings ++ after))))
        (context.joinLinks aliases parent? relation deferred
          (asGivenAll (before ++ (siblings ++ link :: after)))) ∧
      Repeats (¬ Link.Calm (link :: siblings))
        (context.joinLinks aliases parent? relation deferred
          (asGivenAll (before ++ (siblings ++ link :: after))))
        (context.joinLinks aliases parent? relation deferred
          (asGivenAll (before ++ link :: (siblings ++ after)))) := by
  have hfirst : asGivenAll (before ++ link :: (siblings ++ after)) =
      asGivenAll before ++ (asGivenAll (link :: siblings) ++ asGivenAll after) := by
    simp only [asGivenAll_append, asGivenAll, List.cons_append]
  have hlast : asGivenAll (before ++ (siblings ++ link :: after)) =
      asGivenAll before ++ ((asGivenAll siblings ++ [asGiven link]) ++ asGivenAll after) := by
    simp only [asGivenAll_append, asGivenAll, List.append_assoc, List.singleton_append]
  simp only [hfirst, hlast, joinLinks_append _ _ _ (asGivenAll before),
    joinLinks_append _ _ _ (asGivenAll (link :: siblings)),
    joinLinks_append _ _ _ (asGivenAll siblings ++ [asGiven link])]
  constructor
  · apply (Repeats.refl _).bind
    rintro ⟨joined, waiting⟩
    apply (joinLinks_swap hexistential hapart joined waiting).1.bind
    exact fun answer => Repeats.refl _
  · apply (Repeats.refl _).bind
    rintro ⟨joined, waiting⟩
    apply (joinLinks_swap hexistential hapart joined waiting).2.bind
    exact fun answer => Repeats.refl _

theorem joinLinks_moved {links others : List Link} (hmoved : Link.Moved links others)
    {parent? : Option String} (hseparate : Link.Separate parent? links) (relation : Relation)
    (deferred : List Predicate) :
    Repeats (¬ Link.Calm links)
      (context.joinLinks aliases parent? relation deferred (asGivenAll links))
      (context.joinLinks aliases parent? relation deferred (asGivenAll others)) := by
  induction hmoved generalizing parent? relation deferred with
  | later before siblings after hexistential =>
    have hsubset {link : Link} : Link.withinAll (link :: siblings) ⊆
        Link.withinAll (before ++ link :: (siblings ++ after)) := by
      intro inner
      simp only [Link.withinAll_append, Link.withinAll, List.mem_append]
      tauto
    exact (joinLinks_among hexistential before siblings after (hseparate.apart hsubset) relation
      deferred).1.mono
      (mt fun hcalm => hcalm.of_subset hsubset)
  | earlier before siblings after hexistential =>
    have hsubset {link : Link} : Link.withinAll (link :: siblings) ⊆
        Link.withinAll (before ++ (siblings ++ link :: after)) := by
      intro inner
      simp only [Link.withinAll_append, Link.withinAll, List.mem_append]
      tauto
    exact (joinLinks_among hexistential before siblings after (hseparate.apart hsubset) relation
      deferred).2.mono
      (mt fun hcalm => hcalm.of_subset hsubset)
  | inside before after link hinside ih =>
    -- below an existential link they are joined under no alias, below the others under its own
    obtain ⟨hnone, hsome⟩ := hseparate.inside
    have hcalm : Link.Calm (before ++ link :: after) → Link.Calm link.links := by
      intro hcalm
      apply hcalm.of_subset
      intro inner hinner
      simp [Link.withinAll_append, Link.withinAll, Link.within_eq, hinner]
    simp only [asGivenAll_append, asGivenAll, joinLinks_append, joinLinks]
    apply (Repeats.refl _).bind
    rintro ⟨joined, waiting⟩
    apply ((joinLink_withLinks (ih hnone) (ih hsome) _ joined waiting).mono (mt hcalm)).bind
    exact fun answer => Repeats.refl _

end Context

end RecordQuery
