import RecordQuery.Proofs.Plan.Splitting
import RecordQuery.Proofs.Query.Mentions
import RecordQuery.Proofs.Relation.QueryRows
import RecordQuery.Proofs.Relation.Rerun
import RecordQuery.Proofs.Relation.Sorting

namespace RecordQuery

def JoinKind.Opposite (kind other : JoinKind) : Prop :=
  kind = .any ∧ other = .notAny ∨ kind = .all ∧ other = .notAll

namespace JoinKind.Opposite

variable {kind other : JoinKind} (h : kind.Opposite other)

include h

theorem isExistential : kind.isExistential = true ∧ other.isExistential = true := by
  rcases h with ⟨rfl, rfl⟩ | ⟨rfl, rfl⟩ <;> exact ⟨rfl, rfl⟩

theorem keeps (predicate : Predicate) (linked : List Record) :
    Relation.keeps other predicate linked = !Relation.keeps kind predicate linked := by
  rcases h with ⟨rfl, rfl⟩ | ⟨rfl, rfl⟩
  · rfl
  · rw [Relation.keeps, Relation.keeps, List.not_all_eq_any_not]

theorem keepFaults (predicate : Predicate) (linked : List Record) :
    Relation.keepFaults other predicate linked = Relation.keepFaults kind predicate linked := by
  rcases h with ⟨rfl, rfl⟩ | ⟨rfl, rfl⟩ <;> rfl

end JoinKind.Opposite

namespace Relation

def WorksByRows (next : Relation → Except Error Relation) (faulty : Record → Bool)
    (rows : Record → List Record) (added : List String) : Prop :=
  ∀ relation, next relation =
    if relation.records.any faulty then .error .overflow
    else .ok ⟨relation.records.flatMap rows, relation.aliases ++ added⟩

namespace WorksByRows

variable {next : Relation → Except Error Relation} {faulty : Record → Bool}
  {rows : Record → List Record} {added : List String}

theorem existsJoin (hnext : WorksByRows next faulty rows added) (right : Relation)
    (kind : JoinKind) (leftColumn rightColumn : String) (predicate : Predicate) :
    WorksByRows
      (fun relation => relation.existsJoin right kind leftColumn rightColumn predicate >>= next)
      (fun record =>
        keepFaults kind predicate (linked right.records leftColumn rightColumn record) ||
          keeps kind predicate (linked right.records leftColumn rightColumn record) &&
            faulty record)
      (fun record => if keeps kind predicate (linked right.records leftColumn rightColumn record)
        then rows record else []) added := by
  intro relation
  have hany := Pointwise.any_or_any
    (fun record => keepFaults kind predicate (linked right.records leftColumn rightColumn record))
    faulty
    (fun record => if keeps kind predicate (linked right.records leftColumn rightColumn record)
      then [record] else []) relation.records
  rw [flatMap_ite, List.flatMap_singleton'] at hany
  have hrow : ∀ record, (if keeps kind predicate (linked right.records leftColumn rightColumn record)
      then [record] else []).any faulty =
      (keeps kind predicate (linked right.records leftColumn rightColumn record) &&
        faulty record) := by
    intro record
    cases keeps kind predicate (linked right.records leftColumn rightColumn record) <;> simp
  simp only [hrow] at hany
  rw [hany, flatMap_ite]
  dsimp only
  rw [existsJoin_eq]
  cases relation.records.any fun record =>
      keepFaults kind predicate (linked right.records leftColumn rightColumn record) with
  | true => rfl
  | false =>
    rw [if_neg Bool.false_ne_true, ok_bind, hnext, Bool.false_or]
    rfl

theorem finish {names : List String}
    {join : Relation → List Predicate → Except Error (Relation × List Predicate)}
    {waiting : List Predicate} (h : Pointwise names join faulty rows added waiting)
    (deferred : List Predicate) :
    WorksByRows (fun relation => do
        let (joined, filters) ← join relation deferred
        joined.filter (Predicate.conjunction filters))
      (fun record => faulty record ||
        (rows record).any (Predicate.conjunction (deferred ++ waiting)).faults)
      (fun record => (rows record).filter (Predicate.conjunction (deferred ++ waiting)).admits)
      added := by
  intro relation
  dsimp only
  rw [h.run_eq, Pointwise.any_or_any]
  cases relation.records.any faulty with
  | true => rfl
  | false =>
    rw [if_neg Bool.false_ne_true, ok_bind, Bool.false_or]
    dsimp only
    rw [filter, withRecords, List.filter_flatMap]

variable (h : WorksByRows next faulty rows added) {relation answer : Relation}

include h

theorem eq_ok_iff : next relation = .ok answer ↔
    relation.records.any faulty = false ∧
      answer = ⟨relation.records.flatMap rows, relation.aliases ++ added⟩ := by
  rw [h]
  cases relation.records.any faulty with
  | true => simp
  | false => simp [eq_comm]

theorem exists_ok_iff : (∃ answer, next relation = .ok answer) ↔
    relation.records.any faulty = false := by
  simp only [h.eq_ok_iff, exists_and_left, exists_eq, and_true]

theorem overflow_of_error {fault : Error} (herror : next relation = .error fault) :
    fault = .overflow := by
  rw [h] at herror
  split at herror
  · exact (Except.error.inj herror).symm
  · contradiction

end WorksByRows

section Opposite

variable {next : Relation → Except Error Relation} {faulty : Record → Bool}
  {rows : Record → List Record} {added : List String} (hnext : WorksByRows next faulty rows added)
  {kind other : JoinKind} (hopposite : kind.Opposite other) (relation right : Relation)
  (leftColumn rightColumn : String) (predicate : Predicate)

include hnext hopposite

theorem existsJoin_opposite {first second : Relation}
    (hfirst : (relation.existsJoin right kind leftColumn rightColumn predicate >>= next) =
      .ok first)
    (hsecond : (relation.existsJoin right other leftColumn rightColumn predicate >>= next) =
      .ok second) :
    ∃ rest, next relation = .ok rest ∧ (first.records ++ second.records).Perm rest.records := by
  obtain ⟨hnoFirst, rfl⟩ :=
    (hnext.existsJoin right kind leftColumn rightColumn predicate).eq_ok_iff.mp hfirst
  obtain ⟨hnoSecond, rfl⟩ :=
    (hnext.existsJoin right other leftColumn rightColumn predicate).eq_ok_iff.mp hsecond
  simp only [hopposite.keeps] at hnoSecond ⊢
  refine ⟨_, hnext.eq_ok_iff.mpr ⟨?_, rfl⟩, ?_⟩
  · rw [List.any_eq_false] at hnoFirst hnoSecond ⊢
    intro record hrecord
    have hkept := hnoFirst record hrecord
    have hdropped := hnoSecond record hrecord
    cases hkeep : keeps kind predicate (linked right.records leftColumn rightColumn record) with
    | true => exact fun hfaulty => hkept (by simp [hkeep, hfaulty])
    | false => exact fun hfaulty => hdropped (by simp [hkeep, hfaulty])
  · apply (List.flatMap_append_perm _ _ _).trans
    apply List.Perm.flatMap_left
    intro record _
    cases keeps kind predicate (linked right.records leftColumn rightColumn record) <;> simp

theorem existsJoin_opposite_iff {rest : Relation} (hrest : next relation = .ok rest) :
    (∃ first, (relation.existsJoin right kind leftColumn rightColumn predicate >>= next) =
        .ok first) ↔
      ∃ second, (relation.existsJoin right other leftColumn rightColumn predicate >>= next) =
        .ok second := by
  obtain ⟨hnone, -⟩ := hnext.eq_ok_iff.mp hrest
  have hfault : ∀ record ∈ relation.records, faulty record = false := by
    intro record hrecord
    simpa using List.any_eq_false.mp hnone record hrecord
  rw [(hnext.existsJoin right kind leftColumn rightColumn predicate).exists_ok_iff,
    (hnext.existsJoin right other leftColumn rightColumn predicate).exists_ok_iff,
    List.any_eq_false, List.any_eq_false]
  apply forall₂_congr
  intro record hrecord
  rw [hopposite.keepFaults, hfault record hrecord, Bool.and_false, Bool.and_false]

end Opposite

end Relation

theorem AliasMap.entity_without {first hidden last : AliasMap} {name : String}
    (h : name ∉ hidden.map Prod.fst) :
    AliasMap.entity (first ++ last) name = AliasMap.entity (first ++ hidden ++ last) name := by
  have hnone : List.lookup name hidden = none := Record.lookup_eq_none h
  simp only [AliasMap.entity, List.lookup_append, hnone, Option.or_none]

namespace PlannedLink

mutual

theorem exists_step_of_merged (parent? : Option String) : (planned : PlannedLink) →
    ∀ merged ∈ planned.merged, ∃ step ∈ planned.steps parent?,
      step.aliasName = merged.aliasName ∧ step.link = merged.link
  | ⟨aliasName, link, children⟩, merged, h => by
    rw [PlannedLink.merged] at h
    rw [steps]
    split at h
    · contradiction
    · rcases List.mem_cons.mp h with rfl | h
      · exact ⟨_, List.mem_cons_self, rfl, rfl⟩
      · obtain ⟨step, hstep, hsame⟩ := exists_step_of_mergedAll (some aliasName) children merged h
        exact ⟨step, List.mem_cons_of_mem _ hstep, hsame⟩

theorem exists_step_of_mergedAll (parent? : Option String) : (links : List PlannedLink) →
    ∀ merged ∈ mergedAll links, ∃ step ∈ stepsAll parent? links,
      step.aliasName = merged.aliasName ∧ step.link = merged.link
  | [], merged, h => by
    contradiction
  | planned :: rest, merged, h => by
    rw [mergedAll] at h
    rw [stepsAll]
    rcases List.mem_append.mp h with h | h
    · obtain ⟨step, hstep, hsame⟩ := exists_step_of_merged parent? planned merged h
      exact ⟨step, List.mem_append_left _ hstep, hsame⟩
    · obtain ⟨step, hstep, hsame⟩ := exists_step_of_mergedAll parent? rest merged h
      exact ⟨step, List.mem_append_right _ hstep, hsame⟩

end

theorem merged_subset (links : List PlannedLink) :
    (mergedAll links).map (·.aliasName) ⊆ (aliasesAll links).map Prod.fst := by
  intro name hname
  obtain ⟨merged, hmerged, rfl⟩ := List.mem_map.mp hname
  obtain ⟨step, hstep, hsame, -⟩ := exists_step_of_mergedAll none links merged hmerged
  rw [← hsame, ← stepsAll_aliasName none links]
  exact List.mem_map_of_mem hstep

variable {strict : Prop} {context : Context} {aliases others : AliasMap}

theorem carriesTo_mentions {link : Link} {aliasName : String}
    (h : ∀ name ∈ link.filter.mentions, others.entity name = aliases.entity name) :
    link.CarriesTo strict context aliases others Eq aliasName link := by
  have hcompile : ∀ scope, link.filter.compile context others scope =
      link.filter.compile context aliases scope := Filter.compile_mentions link.filter h
  constructor
  · rfl
  · rfl
  · rfl
  · rfl
  · rfl
  · intro _
    exact (Carries.of_eq (hcompile _)).imp fun p q hpq => hpq ▸ Predicate.Alike.refl p
  · intro _
    exact (Carries.of_eq (hcompile _)).imp fun p q hpq => hpq ▸ Predicate.Alike.refl p

mutual

theorem carriesTo_self (parent? : Option String) : (planned : PlannedLink) →
    (∀ step ∈ planned.steps parent?, ∀ name ∈ step.link.filter.mentions,
      others.entity name = aliases.entity name) →
    planned.CarriesTo strict context aliases others Eq planned
  | ⟨aliasName, link, children⟩, h => by
    rw [steps] at h
    refine ⟨rfl, carriesTo_mentions (h _ List.mem_cons_self), ?_⟩
    rw [ite_self]
    exact carryAll_self (some aliasName) children
      fun step hstep => h step (List.mem_cons_of_mem _ hstep)

theorem carryAll_self (parent? : Option String) : (links : List PlannedLink) →
    (∀ step ∈ stepsAll parent? links, ∀ name ∈ step.link.filter.mentions,
      others.entity name = aliases.entity name) →
    CarryAll strict context aliases others Eq links links
  | [], _ => trivial
  | planned :: rest, h => by
    rw [stepsAll] at h
    exact ⟨carriesTo_self parent? planned fun step hstep => h step (List.mem_append_left _ hstep),
      carryAll_self parent? rest fun step hstep => h step (List.mem_append_right _ hstep)⟩

end

end PlannedLink

namespace Context

variable {context : Context} {aliases : AliasMap}

theorem joinLinks_append (parent? : Option String) (relation : Relation)
    (deferred : List Predicate) (links others : List PlannedLink) :
    context.joinLinks aliases parent? relation deferred (links ++ others) = (do
      let (joined, waiting) ← context.joinLinks aliases parent? relation deferred links
      context.joinLinks aliases parent? joined waiting others) := by
  induction links generalizing relation deferred with
  | nil => rfl
  | cons planned rest ih =>
    rw [List.cons_append, joinLinks, joinLinks]
    cases context.joinLink aliases parent? relation deferred planned with
    | error fault => rfl
    | ok answer => exact ih answer.1 answer.2

theorem finish_append (deferred : List Predicate) (links others : List PlannedLink)
    (relation : Relation) :
    context.finish aliases deferred (links ++ others) relation = (do
      let (joined, waiting) ← context.joinLinks aliases none relation deferred links
      context.finish aliases waiting others joined) := by
  unfold finish
  rw [joinLinks_append]
  cases context.joinLinks aliases none relation deferred links <;> rfl

theorem finish_cons (deferred : List Predicate) (planned : PlannedLink) (links : List PlannedLink)
    (relation : Relation) :
    context.finish aliases deferred (planned :: links) relation = (do
      let (joined, waiting) ← context.joinLink aliases none relation deferred planned
      context.finish aliases waiting links joined) := by
  unfold finish
  rw [joinLinks]
  cases context.joinLink aliases none relation deferred planned <;> rfl

theorem exists_existsJoin {parent? : Option String} {planned : PlannedLink} {relation : Relation}
    {deferred : List Predicate} {answer : Relation × List Predicate}
    (hexistential : planned.link.kind.isExistential = true)
    (h : context.joinLink aliases parent? relation deferred planned = .ok answer) :
    ∃ right leftColumn rightColumn predicate, ∀ kind : JoinKind, kind.isExistential = true →
      ∀ relation deferred, context.joinLink aliases parent? relation deferred
          (planned.withKind kind) =
        (relation.existsJoin right kind leftColumn rightColumn predicate).map fun kept =>
          (kept, deferred) := by
  obtain ⟨aliasName, link, children⟩ := planned
  rw [joinLink_existential _ _ _ _ _ _ hexistential] at h
  obtain ⟨right, hright, h⟩ := bind_eq_ok_iff.mp h
  obtain ⟨own, hown, h⟩ := bind_eq_ok_iff.mp h
  obtain ⟨⟨linked, inner⟩, hlinked, -⟩ := bind_eq_ok_iff.mp h
  refine ⟨linked, Accessor.qualifiedBy parent? link.source, link.target,
    Predicate.conjunction inner, ?_⟩
  intro kind hkind relation deferred
  have hjoin := @joinLink_existential context aliases parent? relation deferred aliasName
    (link.withKind kind) children hkind
  unfold PlannedLink.withKind
  rw [hjoin]
  simp only [Link.withKind, hright, hown, hlinked, ok_bind]
  cases relation.existsJoin linked kind (Accessor.qualifiedBy parent? link.source) link.target
    (Predicate.conjunction inner) <;> rfl

section Plan

variable {plan : Plan} {criteria : Predicate} {first last : List PlannedLink}
  {planned : PlannedLink} {answer : Relation}

theorem aliases_withKind (hlinks : plan.links = first ++ planned :: last) (kind : JoinKind) :
    ({ plan with links := first ++ planned.withKind kind :: last } : Plan).aliases =
      plan.aliases := by
  rw [Plan.aliases, Plan.aliases, hlinks, PlannedLink.aliasesAll_append,
    PlannedLink.aliasesAll_append, PlannedLink.aliasesAll, PlannedLink.aliasesAll,
    PlannedLink.aliases_withKind]

theorem exists_worksByRows (hlinks : plan.links = first ++ planned :: last)
    (hexistential : planned.link.kind.isExistential = true)
    (h : context.matchingRows plan criteria = .ok answer) :
    ∃ next faulty rows added relation right leftColumn rightColumn predicate,
      Relation.WorksByRows next faulty rows added ∧
      (∀ kind : JoinKind, kind.isExistential = true →
        context.matchingRows { plan with links := first ++ planned.withKind kind :: last } criteria =
          relation.existsJoin right kind leftColumn rightColumn predicate >>= next) ∧
      context.finish plan.aliases [criteria] (first ++ last)
        (.scan context.store plan.root plan.primaryId) = next relation := by
  rw [matchingRows_eq_finish, hlinks, finish_append] at h
  obtain ⟨⟨joined, waiting⟩, hjoined, h⟩ := bind_eq_ok_iff.mp h
  simp only [finish_cons] at h
  obtain ⟨⟨kept, deferred⟩, hkept, h⟩ := bind_eq_ok_iff.mp h
  obtain ⟨right, leftColumn, rightColumn, predicate, hexists⟩ :=
    exists_existsJoin hexistential hkept
  obtain ⟨⟨rest, filters⟩, hrest, -⟩ := bind_eq_ok_iff.mp h
  obtain ⟨faulty, rows, added, after, hrows⟩ := joinLinks_pointwise last hrest
  refine ⟨context.finish plan.aliases waiting last, _, _, _, joined, right, leftColumn, rightColumn,
    predicate, Relation.WorksByRows.finish hrows waiting, ?_, ?_⟩
  · intro kind hkind
    rw [matchingRows_eq_finish, aliases_withKind hlinks, finish_append, hjoined, ok_bind]
    simp only [finish_cons, hexists kind hkind]
    cases joined.existsJoin right kind leftColumn rightColumn predicate <;> rfl
  · rw [finish_append, hjoined]
    rfl

theorem matchingRows_without (hlinks : plan.links = first ++ planned :: last)
    (hunused : ∀ step ∈ PlannedLink.stepsAll none (first ++ last),
      ∀ name ∈ step.link.filter.mentions, name ∉ planned.aliases.map Prod.fst) :
    context.matchingRows { plan with links := first ++ last } criteria =
      context.finish plan.aliases [criteria] (first ++ last)
        (.scan context.store plan.root plan.primaryId) := by
  rw [matchingRows_eq_finish]
  apply Carries.eq
  apply finish_carries (Predicate.Alike.refl criteria)
  apply PlannedLink.carryAll_self none
  intro step hstep name hname
  rw [Plan.aliases, Plan.aliases, hlinks, PlannedLink.aliasesAll_append,
    PlannedLink.aliasesAll_append, PlannedLink.aliasesAll, ← List.append_assoc]
  exact AliasMap.entity_without (hunused step hstep name hname)

end Plan

end Context

end RecordQuery
