import RecordQuery.Predicate.Compile
import RecordQuery.Proofs.Outcome
import RecordQuery.Proofs.Predicate.Connectives

namespace RecordQuery

namespace Predicate

theorem admits_disjunction_of_all {parts : List Predicate} {record : Record}
    (h : ∀ part ∈ parts, part.admits record = true) : (disjunction parts).admits record = true := by
  unfold disjunction
  split
  · rfl
  · exact h _ (List.mem_singleton_self _)
  · rename_i hnil _
    cases parts with
    | nil => contradiction
    | cons part rest => simp [admits, h part List.mem_cons_self]

theorem admits_conjunction_of_all {parts : List Predicate} {record : Record}
    (h : ∀ part ∈ parts, part.admits record = true) : (conjunction parts).admits record = true := by
  rw [admits_conjunction, List.all_eq_true]
  exact h

end Predicate

namespace Filter

mutual

theorem isEmpty_relaxed : (filter : Filter) → filter.relaxed.isEmpty = filter.isEmpty
  | ⟨connective, conditions, filters⟩ => by
    simp only [relaxed, isEmpty, List.isEmpty_map, allEmpty_relaxedAll filters]

theorem allEmpty_relaxedAll : (filters : List Filter) →
    allEmpty (relaxedAll filters) = allEmpty filters
  | [] => rfl
  | filter :: rest => by
    simp only [relaxedAll, allEmpty, isEmpty_relaxed filter, allEmpty_relaxedAll rest]

end

mutual

def allOuter : Filter → Bool
  | ⟨_, conditions, filters⟩ => conditions.all (·.outer) && allOuterAll filters

def allOuterAll : List Filter → Bool
  | [] => true
  | filter :: rest => filter.allOuter && allOuterAll rest

end

mutual

theorem allOuter_relaxed : (filter : Filter) → filter.relaxed.allOuter = true
  | ⟨connective, conditions, filters⟩ => by
    simp [relaxed, allOuter, allOuterAll_relaxedAll filters]

theorem allOuterAll_relaxedAll : (filters : List Filter) → allOuterAll (relaxedAll filters) = true
  | [] => rfl
  | filter :: rest => by
    simp [relaxedAll, allOuterAll, allOuter_relaxed filter, allOuterAll_relaxedAll rest]

end

mutual

theorem allOuter_of_isEmpty : (filter : Filter) → filter.isEmpty = true → filter.allOuter = true
  | ⟨connective, conditions, filters⟩, h => by
    simp only [isEmpty, Bool.and_eq_true, List.isEmpty_iff] at h
    simp [allOuter, h.1, allOuterAll_of_allEmpty filters h.2]

theorem allOuterAll_of_allEmpty : (filters : List Filter) → allEmpty filters = true →
    allOuterAll filters = true
  | [], _ => rfl
  | filter :: rest, h => by
    simp only [allEmpty, Bool.and_eq_true] at h
    simp [allOuterAll, allOuter_of_isEmpty filter h.1, allOuterAll_of_allEmpty rest h.2]

end

section Compile

variable (context : Context) (aliases : AliasMap) (scope : Scope)

theorem compile_conditions_of_allOuter {conditions : List Condition}
    (h : conditions.all (·.outer) = true) :
    (conditions.mapM fun condition => condition.compile context aliases scope) =
      .ok (conditions.map fun _ => .constant true) := by
  induction conditions with
  | nil => rfl
  | cons condition rest ih =>
    simp only [List.all_cons, Bool.and_eq_true] at h
    rw [List.mapM_cons, ih h.2, Condition.compile, h.1]
    rfl

mutual

theorem compile_of_allOuter : (filter : Filter) → filter.allOuter = true →
    ∃ predicate, filter.compile context aliases scope = .ok predicate ∧
      ∀ record, predicate.admits record = true
  | ⟨connective, conditions, filters⟩, h => by
    simp only [allOuter, Bool.and_eq_true] at h
    obtain ⟨inner, hinner, hadmits⟩ := compileAll_of_allOuter filters h.2
    refine ⟨combine connective ((conditions.map fun _ => .constant true) ++ inner), ?_, ?_⟩
    · simp only [compile, compile_conditions_of_allOuter context aliases scope h.1, hinner, ok_bind,
        pure_eq_ok]
    · intro record
      have hparts : ∀ part ∈ (conditions.map fun _ => Predicate.constant true) ++ inner,
          part.admits record = true := by
        intro part hpart
        rcases List.mem_append.mp hpart with hpart | hpart
        · obtain ⟨condition, -, rfl⟩ := List.mem_map.mp hpart
          rfl
        · exact hadmits part hpart record
      cases connective with
      | and => exact Predicate.admits_conjunction_of_all hparts
      | or => exact Predicate.admits_disjunction_of_all hparts

theorem compileAll_of_allOuter : (filters : List Filter) → allOuterAll filters = true →
    ∃ predicates, compileAll context aliases scope filters = .ok predicates ∧
      ∀ predicate ∈ predicates, ∀ record, predicate.admits record = true
  | [], _ => ⟨[], rfl, by simp⟩
  | filter :: rest, h => by
    simp only [allOuterAll, Bool.and_eq_true] at h
    obtain ⟨first, hfirst, hfirstAdmits⟩ := compile_of_allOuter filter h.1
    obtain ⟨others, hothers, hothersAdmit⟩ := compileAll_of_allOuter rest h.2
    refine ⟨first :: others, ?_, ?_⟩
    · simp only [compileAll, hfirst, hothers, ok_bind, pure_eq_ok]
    · intro predicate hpredicate
      rcases List.mem_cons.mp hpredicate with rfl | hpredicate
      · exact hfirstAdmits
      · exact hothersAdmit predicate hpredicate

end

end Compile

end Filter

end RecordQuery
