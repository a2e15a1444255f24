import RecordQuery.Proofs.Predicate.Contrary
import RecordQuery.Proofs.Relation.Opposite
import RecordQuery.Proofs.Relation.OwnAlias
import RecordQuery.Proofs.Relation.Sorters

namespace RecordQuery

open PlannedLink

theorem PlannedLink.mergedAll_existential {first last : List PlannedLink} {planned : PlannedLink}
    (h : planned.link.kind.isExistential = true) :
    mergedAll (first ++ planned :: last) = mergedAll (first ++ last) := by
  obtain ⟨aliasName, link, children⟩ := planned
  rw [mergedAll_append, mergedAll_append, mergedAll, merged, if_pos h, List.nil_append]

namespace Context

variable {context : Context} {query other : Query} {plan plan' : Plan}

theorem unsorted_eq_map {criteria : Predicate} {keys : List SortKey} {projection : Projection}
    (hplan : Plan.ofQuery context.catalog query = .ok plan)
    (hcriteria : query.criteria.compile context plan.aliases (.root query.entity) = .ok criteria)
    (hkeys : context.sortKeys query plan = .ok keys)
    (hprojection : context.projection query plan = .ok projection) :
    context.unsorted query =
      (context.matchingRows plan criteria).map (Unsorted.mk keys projection) := by
  unfold unsorted
  simp only [hplan, ok_bind, hcriteria, hkeys, hprojection, pure_eq_ok]
  cases context.matchingRows plan criteria <;> rfl

structure Whole (query : Query) : Prop where
  aggregate : query.aggregate = false
  distinct : query.distinct = false
  top : query.top? = none
  paging : query.paging.isRequested = false

theorem Whole.records_paged (h : Whole query) (relation : Relation) :
    (context.paged query relation).records = relation.records := by
  simp [paged, page, h.distinct, h.top, h.paging]

theorem Whole.records_shown? (h : Whole query) {sorter : Sorter} {unsorted : Unsorted}
    {result : QueryResult} (hshown : context.shown? sorter query unsorted = some result) :
    result.records.Perm (unsorted.rows.records.map unsorted.projection.project) := by
  obtain ⟨sorted, hsorted, rfl⟩ := Option.map_eq_some_iff.mp hshown
  rw [h.records_paged]
  exact (sorter.perm _ _ _ hsorted).map unsorted.projection.project

section Split

variable {sorter : Sorter} {first second rest : Query} {keys : List SortKey}
  {projection : Projection} {firstRows secondRows restRows : Except Error Relation}
  (hfirst : context.unsorted first = firstRows.map (Unsorted.mk keys projection))
  (hsecond : context.unsorted second = secondRows.map (Unsorted.mk keys projection))
  (hrest : context.unsorted rest = restRows.map (Unsorted.mk keys projection))
  (hfirstWhole : Whole first) (hsecondWhole : Whole second) (hrestWhole : Whole rest)
  (hsplit : ∀ kept dropped, firstRows = .ok kept → secondRows = .ok dropped →
    ∃ all, restRows = .ok all ∧ (kept.records ++ dropped.records).Perm all.records)

include hfirst hsecond hrest hfirstWhole hsecondWhole hrestWhole hsplit

theorem records_perm_of_split {shown others all : QueryResult}
    (hshown : context.runWith sorter first = .ok (some shown))
    (hothers : context.runWith sorter second = .ok (some others))
    (hall : context.runWith sorter rest = .ok (some all)) :
    (shown.records ++ others.records).Perm all.records := by
  obtain ⟨kept, hkept, hshown⟩ := (runWith_eq_ok_iff hfirstWhole.aggregate hfirst).mp hshown
  obtain ⟨dropped, hdropped, hothers⟩ :=
    (runWith_eq_ok_iff hsecondWhole.aggregate hsecond).mp hothers
  obtain ⟨rows, hrows, hall⟩ := (runWith_eq_ok_iff hrestWhole.aggregate hrest).mp hall
  obtain ⟨_, hok, hperm⟩ := hsplit kept dropped hkept hdropped
  obtain rfl := Except.ok.inj (hok.symm.trans hrows)
  have hboth := (hfirstWhole.records_shown? hshown).append (hsecondWhole.records_shown? hothers)
  rw [← List.map_append] at hboth
  exact hboth.trans ((hperm.map _).trans (hrestWhole.records_shown? hall).symm)

theorem runs_of_split (sorter : Sorter) (hsorts : context.SortsInOrder rest)
    (hkept : ∃ kept, firstRows = .ok kept) (hdropped : ∃ dropped, secondRows = .ok dropped) :
    context.Runs sorter first ∧ context.Runs sorter second ∧ context.Runs sorter rest := by
  obtain ⟨kept, hkept⟩ := hkept
  obtain ⟨dropped, hdropped⟩ := hdropped
  obtain ⟨all, hall, hperm⟩ := hsplit kept dropped hkept hdropped
  have horders : SortKey.Orders keys all.records :=
    hsorts ⟨keys, projection, all⟩ (by rw [hrest, hall]; rfl)
  have hsubset := List.append_subset.mp hperm.subset
  exact ⟨runs_of_orders hfirstWhole.aggregate hfirst sorter hkept (horders.mono hsubset.1),
    runs_of_orders hsecondWhole.aggregate hsecond sorter hdropped (horders.mono hsubset.2),
    runs_of_orders hrestWhole.aggregate hrest sorter hall horders⟩

end Split

end Context

def Query.withLinks (query : Query) (links : List Link) : Query := { query with links }

/-- A link of the query, with the links before and after it. The link and those inside give their
aliases, and nothing else mentions them. -/
structure Detached (query : Query) (before : List Link) (link : Link) (after : List Link) :
    Prop where
  links : query.links = before ++ link :: after
  named : ∀ inner ∈ link.within, inner.alias?.isSome = true
  unused : ∀ name ∈ link.explicitAliases, name ∉ (query.withLinks (before ++ after)).mentions

/-- The other links are given the same names whether the aliases of the link are taken or not. -/
def NamedAlike (query : Query) (others : List Link) : Prop :=
  ((Link.reserved query.links).nameLinks others).1 = ((Link.reserved others).nameLinks others).1

namespace Context

section Link

variable {context : Context} {query : Query} {before after : List Link} {link : Link} {plan : Plan}

theorem Whole.withLinks (h : Whole query) (links : List Link) : Whole (query.withLinks links) :=
  ⟨h.aggregate, h.distinct, h.top, h.paging⟩

theorem entity_of_detached (hdetached : Detached query before link after)
    (parts : Plan.Parts context.catalog query before link after)
    (hlinks : plan.links = parts.first ++ parts.planned :: parts.last) :
    ∀ name ∈ (query.withLinks (before ++ after)).mentions,
      AliasMap.entity ({ plan with links := parts.first ++ parts.last } : Plan).aliases name =
        AliasMap.entity plan.aliases name := by
  intro name hname
  rw [Plan.aliases, Plan.aliases, hlinks, aliasesAll_append, aliasesAll_append, aliasesAll,
    ← List.append_assoc]
  apply AliasMap.entity_without
  intro hmem
  exact hdetached.unused name ((parts.aliases_perm hdetached.named).mem_iff.mp hmem) hname

theorem ShowsAlike.refl_of_eq {first second : List PlannedLink} (h : second = first) :
    List.Forall₂ ShowsAlike first second := by
  rw [h, List.forall₂_same]
  exact fun planned _ => ⟨rfl, rfl, rfl, rfl⟩

theorem mem_within_of_step {links : List Link} {planned : List PlannedLink}
    (hplan : Plan.ofQuery context.catalog (query.withLinks links) =
      .ok { plan with links := planned }) :
    ∀ step ∈ stepsAll none planned, step.link ∈ Link.withinAll links := by
  obtain ⟨-, -, reserved, last, -, hlinks⟩ := Plan.ofQuery_spec hplan
  intro step hstep
  have hwithin := Plan.planLinks_steps none links hlinks
  rw [← hwithin]
  exact List.mem_map_of_mem hstep

theorem mem_mentions_of_step {links : List Link} {planned : List PlannedLink}
    (hplan : Plan.ofQuery context.catalog (query.withLinks links) =
      .ok { plan with links := planned }) :
    ∀ step ∈ stepsAll none planned, ∀ name ∈ step.link.mentions,
      name ∈ (query.withLinks links).mentions := by
  intro step hstep name hname
  have hwithin := mem_within_of_step hplan step hstep
  exact List.mem_append_right _ (List.mem_flatMap.mpr ⟨step.link, hwithin, hname⟩)

theorem mem_mentions_of_order {links : List Link} {planned : List PlannedLink}
    (hplan : Plan.ofQuery context.catalog (query.withLinks links) =
      .ok { plan with links := planned }) :
    ∀ order ∈ query.orders ++ (mergedAll planned).flatMap (·.link.orders),
      ∀ name ∈ order.mentions, name ∈ (query.withLinks links).mentions := by
  intro order horder name hname
  rcases List.mem_append.mp horder with hown | hlinked
  · exact List.mem_append_left _
      (List.mem_append_right _ (List.mem_flatMap.mpr ⟨order, hown, hname⟩))
  · obtain ⟨merged, hmerged, horder⟩ := List.mem_flatMap.mp hlinked
    obtain ⟨step, hstep, -, hlink⟩ := exists_step_of_mergedAll none _ merged hmerged
    rw [← hlink] at horder
    exact mem_mentions_of_step hplan step hstep name
      (List.mem_append_right _ (List.mem_flatMap.mpr ⟨order, horder, hname⟩))

theorem exists_unsorted {result : QueryResult} (hdetached : Detached query before link after)
    (hnames : NamedAlike query (before ++ after)) (haggregate : query.aggregate = false)
    (hexistential : link.kind.isExistential = true) (hrun : context.run query = .ok result) :
    ∃ next faulty rows added relation right leftColumn rightColumn predicate keys projection,
      Relation.WorksByRows next faulty rows added ∧
      (∀ kind : JoinKind, kind.isExistential = true →
        context.unsorted (query.withLinks (before ++ link.withKind kind :: after)) =
          (relation.existsJoin right kind leftColumn rightColumn predicate >>= next).map
            (Unsorted.mk keys projection)) ∧
      context.unsorted (query.withLinks (before ++ after)) =
        (next relation).map (Unsorted.mk keys projection) := by
  obtain ⟨plan, hplan, -⟩ := bind_eq_ok_iff.mp hrun
  obtain ⟨parts, hlinks⟩ := Plan.exists_parts hdetached.links hplan
  obtain ⟨criteria, answer, keys, projection, hcriteria, hrows, hkeys, hprojection, -⟩ :=
    run_rows hplan hrun haggregate
  have hkind : parts.planned.link.kind.isExistential = true := by
    rw [(Plan.planLink_cases parts.planLink).2.2.1]
    exact hexistential
  obtain ⟨next, faulty, rows, added, relation, right, leftColumn, rightColumn, predicate, hnext,
    hkinds, hwithout⟩ := exists_worksByRows hlinks hkind hrows
  have hmerged : plan.mergedLinks = mergedAll (parts.first ++ parts.last) := by
    rw [Plan.mergedLinks, hlinks, mergedAll_existential hkind]
  refine ⟨next, faulty, rows, added, relation, right, leftColumn, rightColumn, predicate, keys,
    projection, hnext, ?_, ?_⟩
  · intro kind hkindExistential
    have hkindPlan := parts.ofQuery_withKind hplan kind
    have haliases := aliases_withKind hlinks kind
    have hsame : ({ plan with links := parts.first ++ parts.planned.withKind kind ::
        parts.last } : Plan).mergedLinks = plan.mergedLinks := by
      rw [hmerged]
      exact mergedAll_existential hkindExistential
    rw [← hkinds kind hkindExistential]
    apply unsorted_eq_map hkindPlan
    · rw [haliases]
      exact hcriteria
    · rw [← hkeys]
      apply sortKeys_congr rfl (ShowsAlike.refl_of_eq hsame) rfl
      intro order _ name _
      rw [haliases]
    · rw [← hprojection]
      exact projection_congr rfl (ShowsAlike.refl_of_eq hsame) rfl rfl
  · have hplanWithout := parts.ofQuery_without hplan hdetached.named hnames
    have hentity := entity_of_detached hdetached parts hlinks
    have hsame : ({ plan with links := parts.first ++ parts.last } : Plan).mergedLinks =
        plan.mergedLinks := hmerged.symm
    rw [← hwithout, ← matchingRows_without hlinks fun step hstep name hname hmem =>
      hdetached.unused name ((parts.aliases_perm hdetached.named).mem_iff.mp hmem)
        (mem_mentions_of_step hplanWithout step hstep name (List.mem_append_left _ hname))]
    apply unsorted_eq_map hplanWithout
    · rw [← hcriteria]
      apply Filter.compile_mentions
      intro name hname
      exact hentity name (List.mem_append_left _ (List.mem_append_left _ hname))
    · rw [← hkeys]
      apply sortKeys_congr rfl (ShowsAlike.refl_of_eq hsame) rfl
      rw [hmerged]
      exact fun order horder name hname =>
        hentity name (mem_mentions_of_order hplanWithout order horder name hname)
    · rw [← hprojection]
      exact projection_congr rfl (ShowsAlike.refl_of_eq hsame) rfl rfl

/-- Of two opposite kinds of an existential link the answers are, put together, the answer without
the link, wherever the three queries run; none of them is refused. If the keys order the rows of the
query without the link, it runs where the two others do, and where it runs, both of these do or
neither. -/
theorem run_opposite {sorter : Sorter} {kind other : JoinKind}
    (hdetached : Detached query before link after) (hnames : NamedAlike query (before ++ after))
    (hwhole : Whole query) (hexistential : link.kind.isExistential = true)
    (hruns : context.Runs sorter query) (hopposite : kind.Opposite other) :
    (∀ first second rest,
      context.runWith sorter (query.withLinks (before ++ link.withKind kind :: after)) =
        .ok (some first) →
      context.runWith sorter (query.withLinks (before ++ link.withKind other :: after)) =
        .ok (some second) →
      context.runWith sorter (query.withLinks (before ++ after)) = .ok (some rest) →
      (first.records ++ second.records).Perm rest.records) ∧
    (context.SortsInOrder (query.withLinks (before ++ after)) →
      (context.Runs sorter (query.withLinks (before ++ link.withKind kind :: after)) →
        context.Runs sorter (query.withLinks (before ++ link.withKind other :: after)) →
        context.Runs sorter (query.withLinks (before ++ after))) ∧
      (context.Runs sorter (query.withLinks (before ++ after)) →
        (context.Runs sorter (query.withLinks (before ++ link.withKind kind :: after)) ↔
          context.Runs sorter (query.withLinks (before ++ link.withKind other :: after))))) ∧
    ∀ links ∈ [before ++ link.withKind kind :: after, before ++ link.withKind other :: after,
      before ++ after], ∀ fault, fault ≠ .overflow →
        context.runWith sorter (query.withLinks links) ≠ .error fault := by
  obtain ⟨result, hrun⟩ := exists_run_of_runs hruns
  obtain ⟨next, faulty, rows, added, relation, right, leftColumn, rightColumn, predicate, keys,
    projection, hnext, hkinds, hwithout⟩ :=
    exists_unsorted hdetached hnames hwhole.aggregate hexistential hrun
  obtain ⟨hkind, hother⟩ := hopposite.isExistential
  have haggregate : ∀ links, (query.withLinks links).aggregate = false :=
    fun links => (hwhole.withLinks links).aggregate
  have hsplit : ∀ kept dropped,
      (relation.existsJoin right kind leftColumn rightColumn predicate >>= next) = .ok kept →
      (relation.existsJoin right other leftColumn rightColumn predicate >>= next) = .ok dropped →
      ∃ all, next relation = .ok all ∧ (kept.records ++ dropped.records).Perm all.records :=
    fun _ _ => Relation.existsJoin_opposite hnext hopposite relation right leftColumn rightColumn
      predicate
  refine ⟨?_, ?_, ?_⟩
  · intro first second rest
    exact records_perm_of_split (hkinds kind hkind) (hkinds other hother) hwithout
      (hwhole.withLinks _) (hwhole.withLinks _) (hwhole.withLinks _) hsplit
  · intro hsorts
    have hruns := runs_of_split (hkinds kind hkind) (hkinds other hother) hwithout
      (hwhole.withLinks _) (hwhole.withLinks _) (hwhole.withLinks _) hsplit sorter hsorts
    constructor
    · intro hfirst hsecond
      have hfirstRows := exists_rows_of_runs (haggregate _) (hkinds kind hkind) hfirst
      have hsecondRows := exists_rows_of_runs (haggregate _) (hkinds other hother) hsecond
      exact (hruns hfirstRows hsecondRows).2.2
    · intro hrest
      obtain ⟨_, hrestRows⟩ := exists_rows_of_runs (haggregate _) hwithout hrest
      have hiff := Relation.existsJoin_opposite_iff hnext hopposite relation right leftColumn
        rightColumn predicate hrestRows
      constructor
      · intro hfirst
        have hrows := exists_rows_of_runs (haggregate _) (hkinds kind hkind) hfirst
        exact (hruns hrows (hiff.mp hrows)).2.1
      · intro hsecond
        have hrows := exists_rows_of_runs (haggregate _) (hkinds other hother) hsecond
        exact (hruns (hiff.mpr hrows) hrows).1
  · intro links hlinks
    simp only [List.mem_cons, List.not_mem_nil, or_false] at hlinks
    rcases hlinks with rfl | rfl | rfl
    · exact runWith_ne_error (haggregate _) (hkinds kind hkind)
        (fun _ => (hnext.existsJoin right kind _ _ _).overflow_of_error) sorter
    · exact runWith_ne_error (haggregate _) (hkinds other hother)
        (fun _ => (hnext.existsJoin right other _ _ _).overflow_of_error) sorter
    · exact runWith_ne_error (haggregate _) hwithout
        (fun _ => hnext.overflow_of_error) sorter

end Link

theorem NamedAlike.of_named {query : Query} {others : List Link}
    (h : ∀ link ∈ Link.withinAll others, link.alias?.isSome = true) : NamedAlike query others := by
  unfold NamedAlike
  rw [Aliases.nameLinks_of_named others _ h, Aliases.nameLinks_of_named others _ h]

def staffed (employees : Value) : Context where
  store := Store.ofList
    [⟨"account", .ofNat 1, .ofList [("employees", .int 2)]⟩,
      ⟨"account", .ofNat 2, .ofList [("employees", employees)]⟩,
      ⟨"account", .ofNat 3, .ofList [("employees", .int 1)]⟩,
      ⟨"contact", .ofNat 4, .ofList [("accountid", .uuid (.ofNat 1))]⟩,
      ⟨"contact", .ofNat 5, .ofList [("accountid", .uuid (.ofNat 2))]⟩,
      ⟨"contact", .ofNat 6, .ofList [("accountid", .uuid (.ofNat 1))]⟩]
  catalog := { Catalog.empty with
    entities := [(EntityMetadata.ofName "account").withCode "employees" .integer,
      (EntityMetadata.ofName "contact").withCode "accountid" .lookup] }
  caller := default
  now := default
  pageSize := 0

def toStaff (kind : JoinKind) : Link :=
  ⟨"accountid", "contact", "accountid", kind, some "contact", .none, .all, [], []⟩

def byStaff (links : List Link) : Query :=
  { Query.ofEntity "account" with orders := [⟨"employees", none, false⟩], links }

theorem detached_toStaff (kind : JoinKind) :
    Detached (byStaff [toStaff kind]) [] (toStaff kind) [] :=
  ⟨rfl, by cases kind <;> decide, by cases kind <;> decide⟩

theorem run_opposite_staffed :
    (staffed (.int 3)).SortsInOrder (byStaff []) ∧
      ∃ first second rest,
        (staffed (.int 3)).runWith .wary (byStaff [toStaff .any]) = .ok (some first) ∧
        (staffed (.int 3)).runWith .wary (byStaff [toStaff .notAny]) = .ok (some second) ∧
        (staffed (.int 3)).runWith .wary (byStaff []) = .ok (some rest) ∧
        (staffed (.int 3)).run (byStaff []) = .ok rest ∧
        (first.records ++ second.records).Perm rest.records ∧
        first.records.map (·.id.toNat) = [1, 2] ∧ second.records.map (·.id.toNat) = [3] := by
  have hsorts : (staffed (.int 3)).SortsInOrder (byStaff []) := by
    intro unsorted hunsorted
    obtain rfl := Except.ok.inj hunsorted
    decide
  have hnames : NamedAlike (byStaff [toStaff .any]) [] :=
    NamedAlike.of_named (by simp [Link.withinAll])
  obtain ⟨first, hfirst, hshown⟩ : ∃ first,
      (staffed (.int 3)).runWith .wary (byStaff [toStaff .any]) = .ok (some first) ∧
        first.records.map (·.id.toNat) = [1, 2] := ⟨_, rfl, by decide⟩
  obtain ⟨second, hsecond, hothers⟩ : ∃ second,
      (staffed (.int 3)).runWith .wary (byStaff [toStaff .notAny]) = .ok (some second) ∧
        second.records.map (·.id.toNat) = [3] := ⟨_, rfl, by decide⟩
  have hopposite : JoinKind.Opposite .any .notAny := Or.inl ⟨rfl, rfl⟩
  obtain ⟨hperm, hruns, -⟩ := run_opposite (detached_toStaff .any) hnames ⟨rfl, rfl, rfl, rfl⟩ rfl
    ⟨first, hfirst⟩ hopposite
  obtain ⟨rest, hrest⟩ := (hruns hsorts).1 ⟨first, hfirst⟩ ⟨second, hsecond⟩
  obtain ⟨_, hrun, hsame⟩ := map_eq_ok_iff.mp ((runWith_eq_run .wary hsorts).symm.trans hrest)
  obtain rfl := Option.some.inj hsame
  exact ⟨hsorts, first, second, _, hfirst, hsecond, hrest, hrun,
    hperm _ _ _ hfirst hsecond hrest, hshown, hothers⟩

def withContactTwice : Query :=
  { Query.ofEntity "account" with
    links := [toIdentified .any none,
      ⟨"accountid", "contact", "accountid", .leftOuter, none, .all, .all, [], []⟩] }

def sinceLeast : Context where
  store := Store.ofList
    [⟨"account", .ofNat 1, .ofList [("since", .dateTime .least)]⟩,
      ⟨"contact", .ofNat 2, .ofList [("accountid", .uuid (.ofNat 1))]⟩]
  catalog := { Catalog.empty with
    entities := [(EntityMetadata.ofName "account").withCode "since" .dateTime,
      (EntityMetadata.ofName "contact").withCode "accountid" .lookup]
    offset := Condition.westward.catalog.offset }
  caller := default
  now := .greatest
  pageSize := 0

def sinceGreatest (kind : JoinKind) : Query :=
  { Query.ofEntity "account" with
    criteria := ⟨.and, [⟨"since", none, .on false, [.dateTime .greatest], none, false⟩], []⟩
    links := [⟨"accountid", "contact", "accountid", kind, some "contact", .none, .all, [], []⟩] }

/-- Without its link the contacts are taken in under another alias; of two numbers that a text ties
with one is the greater; and an account whose local day is outside of the calendar is not looked at
under the kind that drops it. -/
theorem exists_run_not_opposite :
    (¬ ∀ (context : Context) (sorter : Sorter) (query : Query) (before after : List Link)
        (link : Link) (kind other : JoinKind) (first second : QueryResult),
      Detached query before link after → Whole query → link.kind.isExistential = true →
      context.Runs sorter query → kind.Opposite other →
      context.runWith sorter (query.withLinks (before ++ link.withKind kind :: after)) =
        .ok (some first) →
      context.runWith sorter (query.withLinks (before ++ link.withKind other :: after)) =
        .ok (some second) →
      ∃ rest, context.runWith sorter (query.withLinks (before ++ after)) = .ok (some rest) ∧
        (first.records ++ second.records).Perm rest.records) ∧
    (¬ ∀ (context : Context) (sorter : Sorter) (query : Query) (before after : List Link)
        (link : Link) (kind other : JoinKind),
      Detached query before link after → NamedAlike query (before ++ after) → Whole query →
      link.kind.isExistential = true → context.Runs sorter query → kind.Opposite other →
      context.Runs sorter (query.withLinks (before ++ link.withKind kind :: after)) →
      context.Runs sorter (query.withLinks (before ++ link.withKind other :: after)) →
      context.Runs sorter (query.withLinks (before ++ after))) ∧
    ¬ ∀ (context : Context) (sorter : Sorter) (query : Query) (before after : List Link)
        (link : Link) (kind other : JoinKind),
      Detached query before link after → NamedAlike query (before ++ after) → Whole query →
      link.kind.isExistential = true → context.Runs sorter query → kind.Opposite other →
      (context.Runs sorter (query.withLinks (before ++ link.withKind kind :: after)) ↔
        context.Runs sorter (query.withLinks (before ++ link.withKind other :: after))) := by
  refine ⟨?_, ?_, ?_⟩
  · intro h
    have hdetached : Detached withContactTwice [] (toIdentified .any none)
        [⟨"accountid", "contact", "accountid", .leftOuter, none, .all, .all, [], []⟩] :=
      ⟨rfl, by decide, by decide⟩
    obtain ⟨first, hfirst, hfirstNames⟩ : ∃ first,
        (contactUnder "contactid").runWith .stable withContactTwice = .ok (some first) ∧
          first.records.map (·.attributes.names) =
            [["accountid", "contact2.accountid", "contact2.contactid"]] := ⟨_, rfl, by decide⟩
    have hsecond : (contactUnder "contactid").runWith .stable (withContactTwice.withLinks
        [toIdentified .notAny none,
          ⟨"accountid", "contact", "accountid", .leftOuter, none, .all, .all, [], []⟩]) =
        .ok (some ⟨[], none, false⟩) := rfl
    obtain ⟨all, hall, hallNames⟩ : ∃ all,
        (contactUnder "contactid").runWith .stable (withContactTwice.withLinks
          [⟨"accountid", "contact", "accountid", .leftOuter, none, .all, .all, [], []⟩]) =
            .ok (some all) ∧
          all.records.map (·.attributes.names) =
            [["accountid", "contact.accountid", "contact.contactid"]] := ⟨_, rfl, by decide⟩
    obtain ⟨rest, hrest, hperm⟩ := h _ _ _ _ _ _ .any .notAny _ _ hdetached ⟨rfl, rfl, rfl, rfl⟩
      rfl ⟨first, hfirst⟩ (Or.inl ⟨rfl, rfl⟩) hfirst hsecond
    obtain rfl := Option.some.inj (Except.ok.inj (hall.symm.trans hrest))
    have hnames := hperm.map fun record => record.attributes.names
    rw [List.append_nil, hfirstNames, hallNames, List.singleton_perm_singleton] at hnames
    exact absurd hnames (by decide)
  · intro h
    have hnames : NamedAlike (byStaff [toStaff .any]) [] :=
      NamedAlike.of_named (by simp [Link.withinAll])
    have hfirst : (staffed (.text "many")).Runs .wary (byStaff [toStaff .any]) := ⟨_, rfl⟩
    have hsecond : (staffed (.text "many")).Runs .wary (byStaff [toStaff .notAny]) := ⟨_, rfl⟩
    obtain ⟨rest, hrest⟩ := h _ _ _ _ _ _ .any .notAny (detached_toStaff .any) hnames
      ⟨rfl, rfl, rfl, rfl⟩ rfl hfirst (Or.inl ⟨rfl, rfl⟩) hfirst hsecond
    have hgivesUp : (staffed (.text "many")).runWith .wary (byStaff []) = .ok none := rfl
    cases hgivesUp.symm.trans hrest
  · intro h
    have hdetached : Detached (sinceGreatest .notAny) []
        ⟨"accountid", "contact", "accountid", .notAny, some "contact", .none, .all, [], []⟩ [] :=
      ⟨rfl, by decide, by decide⟩
    have hnames : NamedAlike (sinceGreatest .notAny) [] :=
      NamedAlike.of_named (by simp [Link.withinAll])
    have hnone : sinceLeast.Runs .stable (sinceGreatest .notAny) := ⟨_, rfl⟩
    have hfault : sinceLeast.runWith .stable (sinceGreatest .any) = .error .overflow := rfl
    have hiff := h _ _ _ _ _ _ .any .notAny hdetached hnames ⟨rfl, rfl, rfl, rfl⟩ rfl hnone
      (Or.inl ⟨rfl, rfl⟩)
    obtain ⟨first, hfirst⟩ := hiff.mpr hnone
    cases hfault.symm.trans hfirst

end Context

end RecordQuery
