import Mathlib.Data.List.TakeWhile
import RecordQuery.Predicate.Compile
import RecordQuery.Proofs.Carrying
import RecordQuery.Proofs.Query.Within
import RecordQuery.Query.Description

namespace RecordQuery

def Condition.mentions (condition : Condition) : List String :=
  condition.alias?.toList ++ (condition.other?.toList.filter Record.isQualified).map fun other =>
    String.ofList (other.toList.takeWhile (· != '.'))

def Filter.mentions (filter : Filter) : List String :=
  filter.conditionsWithin.flatMap Condition.mentions

def OrderBy.mentions (order : OrderBy) : List String := order.alias?.toList

def Link.mentions (link : Link) : List String :=
  link.filter.mentions ++ link.orders.flatMap OrderBy.mentions

def Query.mentions (query : Query) : List String :=
  query.criteria.mentions ++ query.orders.flatMap OrderBy.mentions ++
    (Link.withinAll query.links).flatMap Link.mentions

section Compile

variable {context : Context} {aliases others : AliasMap}

theorem Scope.aliased_congr {alias? : Option String}
    (h : ∀ name ∈ alias?.toList, others.entity name = aliases.entity name) (scope : Scope) :
    scope.aliased others alias? = scope.aliased aliases alias? := by
  cases alias? with
  | none => rfl
  | some aliasName => simp only [aliased, h aliasName List.mem_cons_self]

namespace Condition

theorem otherColumn_mentions {condition : Condition} {other : String}
    (hother : condition.other? = some other)
    (h : ∀ name ∈ condition.mentions, others.entity name = aliases.entity name) (scope : Scope) :
    otherColumn others scope other = otherColumn aliases scope other := by
  unfold otherColumn
  dsimp only
  cases hrest : other.toList.dropWhile (· != '.') with
  | nil => rfl
  | cons point column =>
    have hqualified : Record.isQualified other = true := by
      have hne : other.toList.dropWhile (· != '.') ≠ [] := by simp [hrest]
      rw [ne_eq, List.dropWhile_eq_nil_iff] at hne
      simpa [Record.isQualified] using hne
    have hname : String.ofList (other.toList.takeWhile (· != '.')) ∈ condition.mentions := by
      simp [mentions, hother, hqualified]
    simp only [h _ hname]

theorem compile_mentions {condition : Condition}
    (h : ∀ name ∈ condition.mentions, others.entity name = aliases.entity name) (scope : Scope) :
    condition.compile context others scope = condition.compile context aliases scope := by
  unfold compile
  rw [Scope.aliased_congr fun name hname => h name (List.mem_append_left _ hname)]
  cases hother : condition.other? with
  | none => rfl
  | some other => simp only [compileColumns, otherColumn_mentions hother h]

end Condition

namespace Filter

mutual

theorem compile_mentions : (filter : Filter) →
    (∀ name ∈ filter.mentions, others.entity name = aliases.entity name) → (scope : Scope) →
    filter.compile context others scope = filter.compile context aliases scope
  | ⟨connective, conditions, filters⟩, h, scope => by
    simp only [mentions, conditionsWithin, List.flatMap_append, List.mem_append] at h
    have hconditions : (conditions.mapM fun condition : Condition =>
          condition.compile context others scope) =
        conditions.mapM fun condition : Condition => condition.compile context aliases scope := by
      apply mapM_eq_of_forall₂
      rw [List.forall₂_same]
      intro condition hcondition
      apply Condition.compile_mentions
      exact fun name hname => h name (Or.inl (List.mem_flatMap.mpr ⟨condition, hcondition, hname⟩))
    rw [compile, compile, hconditions, compileAll_mentions filters
      (fun name hname => h name (Or.inr hname)) scope]

theorem compileAll_mentions : (filters : List Filter) →
    (∀ name ∈ (conditionsWithinAll filters).flatMap Condition.mentions,
      others.entity name = aliases.entity name) → (scope : Scope) →
    compileAll context others scope filters = compileAll context aliases scope filters
  | [], _, _ => rfl
  | filter :: rest, h, scope => by
    simp only [conditionsWithinAll, List.flatMap_append, List.mem_append] at h
    rw [compileAll, compileAll,
      compile_mentions filter (fun name hname => h name (Or.inl hname)) scope,
      compileAll_mentions rest (fun name hname => h name (Or.inr hname)) scope]

end

end Filter

end Compile

end RecordQuery
