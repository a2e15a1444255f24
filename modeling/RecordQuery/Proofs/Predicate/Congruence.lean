import RecordQuery.Predicate.Compile
import RecordQuery.Proofs.Outcome

namespace RecordQuery

def Operator.namesWindow : Operator → Bool
  | .day _ | .sevenDays _ | .calendar _ _ | .span _ _ | .olderThan _ => true
  | operator => operator.isFiscal

namespace Condition

theorem window?_of_not_namesWindow {condition : Condition}
    (h : condition.operator.namesWindow = false) (values : List Value) (present : Present) :
    condition.window? values present = present.today.map fun _ => none := by
  unfold window?
  cases present.today with
  | error fault => rfl
  | ok today =>
    cases hoperator : condition.operator with
    | compare _ | text _ _ | oneOf _ | between _ | null _ | on _ | onOrAfter | onOrBefore
    | caller _ _ | kin _ | containValues _ => rfl
    | _ =>
      rw [hoperator] at h
      contradiction

def compileAttribute (condition : Condition) (context : Context) (scope : Scope)
    (accessor : Accessor) (values : List Value) : Except Error Predicate := do
  let operator := condition.operator
  if let .containValues _ := operator then
    throw (.operator (.optionsOnly operator condition.column))
  if operator.isDate && !accessor.type.isTemporal then
    throw (.operator (.datesOnly operator condition.column accessor.type))
  if let .kin kinship := operator then
    condition.compileKinship context scope.entity accessor kinship values
  else
    match ← condition.window? values context.present with
    | some derived =>
      derived.compileOperator context accessor (Value.flattenAll derived.values) true
    | none => condition.compileOperator context accessor values false

theorem compileOperands_eq (condition : Condition) (context : Context) (scope : Scope)
    (accessor : Accessor) :
    condition.compileOperands context scope accessor =
      if condition.operator.arity.accepts (Value.flattenAll condition.values).length then
        if accessor.type = .options then condition.compileOptions accessor
        else condition.compileAttribute context scope accessor (Value.flattenAll condition.values)
      else
        .error (.operandCount condition.operator (Value.flattenAll condition.values).length) := by
  unfold compileOperands compileAttribute
  dsimp only
  cases condition.operator.arity.accepts (Value.flattenAll condition.values).length <;> rfl

theorem wholeDay_error {high : Scalar} {fault : Error} (h : wholeDay high = .error fault) :
    fault = .overflow := by
  unfold wholeDay at h
  split at h
  · split at h
    · split at h
      · contradiction
      · exact (Except.error.inj h).symm
    · contradiction
  · contradiction

theorem compileRange_cases (accessor : Accessor) (widened : Bool) (low high : Value) :
    (∀ negated, compileRange accessor negated widened low high = .error .overflow) ∨
    (∀ negated, compileRange accessor negated widened low high = .ok (.constant false)) ∨
    ∃ lower upper, ∀ negated, compileRange accessor negated widened low high =
      .ok (.value accessor (.range lower upper) negated (some low)) := by
  unfold compileRange
  cases high.scalar? accessor.type (some high) with
  | none =>
    refine .inr (.inl fun negated => ?_)
    cases low.scalar? accessor.type (some low) <;> rfl
  | some upper =>
    cases widened with
    | false =>
      cases low.scalar? accessor.type (some low) with
      | none => exact .inr (.inl fun _ => rfl)
      | some lower => exact .inr (.inr ⟨lower, upper, fun _ => rfl⟩)
    | true =>
      simp only [if_true]
      cases hday : wholeDay upper with
      | error fault =>
        obtain rfl := wholeDay_error hday
        exact .inl fun _ => rfl
      | ok last =>
        cases low.scalar? accessor.type (some low) with
        | none => exact .inr (.inl fun _ => rfl)
        | some lower => exact .inr (.inr ⟨lower, last, fun _ => rfl⟩)

variable {c c' : Condition} (hcolumn : c'.column = c.column) (hoperator : c'.operator = c.operator)

include hcolumn hoperator

theorem beyondCalendar_congr : c'.beyondCalendar = c.beyondCalendar := by
  rw [beyondCalendar, beyondCalendar, hcolumn, hoperator]

theorem spanWindow_congr (present : Present) (today : Date) (direction : Direction)
    (unit : SpanUnit) (n : Int) :
    c'.spanWindow present today direction unit n =
      (c.spanWindow present today direction unit n).map fun d => c'.derive d.operator d.values := by
  cases direction <;> cases unit <;>
    simp only [spanWindow, inCalendar, beyondCalendar_congr hcolumn hoperator, bind_map] <;> rfl

theorem window?_congr (values : List Value) (present : Present) :
    c'.window? values present =
      (c.window? values present).map (Option.map fun d => c'.derive d.operator d.values) := by
  simp only [window?, bind_map, hcolumn, hoperator, inCalendar,
    beyondCalendar_congr hcolumn hoperator, countOperand, fiscalDays, offsetPeriod,
    fiscalYearBounds, fiscalPeriodBounds, fiscalSpanDays, fiscalYearOperand, fiscalPeriodOperand,
    fiscalOperand, spanWindow_congr hcolumn hoperator]
  congr 1
  funext today
  cases c.operator with
  | sevenDays direction => cases direction <;> simp only [bind_map] <;> rfl
  | fiscalPeriodAndYear reach => cases reach <;> simp only [bind_map] <;> rfl
  | span direction unit =>
    simp only [bind_map]
    congr 1
    funext n
    cases c.spanWindow present today direction unit n <;> rfl
  | _ =>
    try simp only [bind_map]
    rfl

theorem compileOperator_congr (context : Context) (accessor : Accessor) (values : List Value)
    (isWindow : Bool) :
    c'.compileOperator context accessor values isWindow =
      c.compileOperator context accessor values isWindow := by
  simp only [compileOperator, compileDay, hcolumn, hoperator]

theorem compileKinship_congr (context : Context) (entity : String) (accessor : Accessor)
    (kinship : Kinship) (values : List Value) :
    c'.compileKinship context entity accessor kinship values =
      c.compileKinship context entity accessor kinship values := by
  simp only [compileKinship, hcolumn, hoperator]

theorem compileColumns_congr (catalog : Catalog) (aliases : AliasMap) (scope : Scope)
    (left : Accessor) (other : String) :
    c'.compileColumns catalog aliases scope left other =
      c.compileColumns catalog aliases scope left other := by
  simp only [compileColumns, hcolumn, hoperator]

theorem compileAttribute_congr (context : Context) (scope : Scope) (accessor : Accessor)
    (values : List Value) :
    c'.compileAttribute context scope accessor values =
      c.compileAttribute context scope accessor values := by
  simp only [compileAttribute, hcolumn, hoperator, compileKinship_congr hcolumn hoperator,
    compileOperator_congr hcolumn hoperator]
  have hwindow : ∀ next : Option Condition → Except Error Predicate,
      (∀ operator values, next (some (c'.derive operator values)) =
        next (some (c.derive operator values))) →
      (c'.window? values context.present >>= next) =
        c.window? values context.present >>= next := by
    intro next hnext
    have hself : c.window? values context.present =
        (c.window? values context.present).map
          (Option.map fun derived => c.derive derived.operator derived.values) :=
      window?_congr rfl rfl _ _
    rw [window?_congr hcolumn hoperator]
    cases hfound : c.window? values context.present with
    | error fault => rfl
    | ok derived? =>
      rw [hfound] at hself
      rw [hself]
      cases derived? with
      | none => rfl
      | some derived => exact hnext derived.operator derived.values
  rw [hwindow]
  intro operator values
  apply compileOperator_congr
  · exact hcolumn
  · rfl

theorem compileOperands_congr (hvalues : c'.values = c.values) (context : Context) (scope : Scope)
    (accessor : Accessor) :
    c'.compileOperands context scope accessor = c.compileOperands context scope accessor := by
  have hoptions : c'.compileOptions accessor = c.compileOptions accessor := by
    simp only [compileOptions, hcolumn, hoperator, hvalues]
  rw [compileOperands_eq, compileOperands_eq, hvalues, hoperator, hoptions,
    compileAttribute_congr hcolumn hoperator]

end Condition

end RecordQuery
