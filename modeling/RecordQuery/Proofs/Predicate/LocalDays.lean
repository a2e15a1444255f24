import RecordQuery.Proofs.Predicate.Alike
import RecordQuery.Proofs.Predicate.WindowForms
import RecordQuery.Proofs.Query.Within

namespace RecordQuery

def Operator.asksDay : Operator → Bool
  | .on _ | .onOrAfter | .onOrBefore | .day _ => true
  | _ => false

def Filter.Dayless (filter : Filter) : Prop :=
  ∀ condition ∈ filter.conditionsWithin, condition.operator.asksDay = false

namespace Predicate

def Steady (predicate : Predicate) : Prop := ∀ row, predicate.faults row = false

theorem Steady.value {test : ValueTest} (h : ∀ scalar, test.faults scalar = false)
    (accessor : Accessor) (negated : Bool) (sample? : Option Value) :
    Steady (.value accessor test negated sample?) := by
  intro row
  rw [faults]
  cases scalarOf accessor sample? row with
  | none => rfl
  | some scalar => exact h scalar

theorem Steady.conjunction {parts : List Predicate} (h : ∀ part ∈ parts, part.Steady) :
    (Predicate.conjunction parts).Steady :=
  fun row => Filter.faults_combine .and fun part hpart => h part hpart row

end Predicate

namespace Condition

open Predicate (Steady)

variable {condition : Condition} {context : Context} {accessor : Accessor} {values : List Value}
  {predicate : Predicate}

theorem asksDay_of_window? {derived : Condition} {present : Present}
    (hday : condition.operator.asksDay = false)
    (h : condition.window? values present = .ok (some derived)) :
    derived.operator.asksDay = false := by
  rcases eq_of_window? h with ⟨turn, day, hoperator, -⟩ | ⟨window, rfl⟩
  · rw [hoperator] at hday
    contradiction
  · cases window <;> rfl

theorem compileOptions_steady (h : condition.compileOptions accessor = .ok predicate) :
    Steady predicate := by
  have hequal : ∀ negated : Bool, (do
      let codes ← Value.operandOptionSet condition.values
      if codes.isEmpty then return Predicate.constant false
      else return .value accessor (.setEquals codes) negated none) = .ok predicate →
      Steady predicate := by
    intro negated h
    obtain ⟨codes, -, h⟩ := bind_eq_ok_iff.mp h
    split at h
    · exact Except.ok.inj h ▸ fun _ => rfl
    · exact Except.ok.inj h ▸ .value (fun _ => rfl) accessor negated none
  unfold compileOptions at h
  split at h
  · exact Except.ok.inj h ▸ fun _ => rfl
  · exact hequal false h
  · exact hequal true h
  · exact hequal _ h
  · obtain ⟨codes, -, h⟩ := bind_eq_ok_iff.mp h
    exact Except.ok.inj h ▸ .value (fun _ => rfl) accessor _ none
  · contradiction

theorem compileKinship_steady {entity : String} {kinship : Kinship}
    (h : condition.compileKinship context entity accessor kinship values = .ok predicate) :
    Steady predicate := by
  unfold compileKinship at h
  split at h
  · contradiction
  · split at h
    · contradiction
    · exact Except.ok.inj h ▸ .value (fun _ => rfl) accessor _ none

theorem compileRange_steady {negated widened : Bool} {low high : Value}
    (h : compileRange accessor negated widened low high = .ok predicate) : Steady predicate := by
  obtain hfault | hnothing | ⟨lower, upper, hrange⟩ :=
    compileRange_cases accessor widened low high
  · rw [hfault] at h
    contradiction
  · rw [hnothing] at h
    exact Except.ok.inj h ▸ fun _ => rfl
  · rw [hrange] at h
    exact Except.ok.inj h ▸ .value (fun _ => rfl) accessor negated _

theorem compileAnyOf_steady (negated : Bool) : Steady (compileAnyOf accessor values negated) := by
  unfold compileAnyOf
  split
  · exact fun _ => rfl
  · exact .value (fun _ => rfl) accessor negated _

theorem compileComparison_steady (comparison : Comparison) (operand : Value) :
    Steady (compileComparison accessor comparison operand) := by
  unfold compileComparison
  split
  · exact .value (fun _ => rfl) accessor false _
  · exact fun _ => rfl

theorem compileOperator_steady {isWindow : Bool} (hday : condition.operator.asksDay = false)
    (h : condition.compileOperator context accessor values isWindow = .ok predicate) :
    Steady predicate := by
  unfold compileOperator at h
  dsimp only at h
  split at h
  · exact Except.ok.inj h ▸ compileAnyOf_steady false
  · exact Except.ok.inj h ▸ compileAnyOf_steady true
  · exact Except.ok.inj h ▸ compileAnyOf_steady _
  · exact Except.ok.inj h ▸ compileComparison_steady _ _
  · exact Except.ok.inj h ▸ fun _ => rfl
  · exact Except.ok.inj h ▸ fun _ => rfl
  · exact compileRange_steady h
  iterate 3
    · rename_i hoperator
      rw [hoperator] at hday
      contradiction
  · exact Except.ok.inj h ▸ .value (fun _ => rfl) accessor _ none
  · contradiction

theorem compileAttribute_steady {scope : Scope} (hday : condition.operator.asksDay = false)
    (h : condition.compileAttribute context scope accessor values = .ok predicate) :
    Steady predicate := by
  unfold compileAttribute at h
  dsimp only at h
  split at h
  · contradiction
  · split at h
    · contradiction
    · split at h
      · exact compileKinship_steady h
      · obtain ⟨derived?, hwindow, h⟩ := bind_eq_ok_iff.mp h
        cases derived? with
        | none => exact compileOperator_steady hday h
        | some derived => exact compileOperator_steady (asksDay_of_window? hday hwindow) h

theorem compile_steady {aliases : AliasMap} {scope : Scope}
    (hday : condition.operator.asksDay = false)
    (h : condition.compile context aliases scope = .ok predicate) : Steady predicate := by
  unfold compile at h
  split at h
  · exact Except.ok.inj h ▸ fun _ => rfl
  · obtain ⟨target, -, h⟩ := bind_eq_ok_iff.mp h
    obtain ⟨accessor, -, h⟩ := bind_eq_ok_iff.mp h
    split at h
    · unfold compileColumns at h
      split at h
      · obtain ⟨_, -, h⟩ := bind_eq_ok_iff.mp h
        obtain ⟨right, -, h⟩ := bind_eq_ok_iff.mp h
        exact Except.ok.inj h ▸ fun _ => rfl
      · contradiction
    · rw [compileOperands_eq] at h
      split at h
      · split at h
        · exact compileOptions_steady h
        · exact compileAttribute_steady hday h
      · contradiction

end Condition

namespace Filter

variable {context : Context} {aliases : AliasMap} {scope : Scope}

mutual

theorem compile_steady {predicate : Predicate} : (filter : Filter) → filter.Dayless →
    filter.compile context aliases scope = .ok predicate → predicate.Steady
  | ⟨connective, conditions, filters⟩, hday, h => by
    simp only [Dayless, conditionsWithin, List.mem_append] at hday
    unfold compile at h
    obtain ⟨own, hown, h⟩ := bind_eq_ok_iff.mp h
    obtain ⟨inner, hinner, h⟩ := bind_eq_ok_iff.mp h
    obtain rfl := Except.ok.inj h
    intro row
    apply faults_combine
    intro part hpart
    rcases List.mem_append.mp hpart with hpart | hpart
    · obtain ⟨condition, hcondition, hcompile⟩ := exists_of_mem_mapM hown hpart
      exact Condition.compile_steady (hday condition (Or.inl hcondition)) hcompile row
    · exact compileAll_steady filters (fun condition hmem => hday condition (Or.inr hmem)) hinner
        part hpart row

theorem compileAll_steady {parts : List Predicate} : (filters : List Filter) →
    (∀ condition ∈ conditionsWithinAll filters, condition.operator.asksDay = false) →
    compileAll context aliases scope filters = .ok parts → ∀ part ∈ parts, part.Steady
  | [], _, h, part, hpart => by
    obtain rfl := Except.ok.inj h
    contradiction
  | filter :: rest, hday, h, part, hpart => by
    simp only [conditionsWithinAll, List.mem_append] at hday
    unfold compileAll at h
    obtain ⟨first, hfirst, h⟩ := bind_eq_ok_iff.mp h
    obtain ⟨others, hothers, h⟩ := bind_eq_ok_iff.mp h
    obtain rfl := Except.ok.inj h
    rcases List.mem_cons.mp hpart with rfl | hpart
    · exact compile_steady filter (fun condition hmem => hday condition (Or.inl hmem)) hfirst
    · exact compileAll_steady rest (fun condition hmem => hday condition (Or.inr hmem)) hothers part
        hpart

end

end Filter

end RecordQuery
