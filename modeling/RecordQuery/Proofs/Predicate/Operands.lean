import RecordQuery.Proofs.Predicate.Contrary

namespace RecordQuery

def Operator.comparesOperands : Operator → Bool
  | .compare _ | .oneOf _ | .between _ => true
  | _ => false

namespace Value

variable {operand : Value}

mutual

theorem flatten_of_mem_flatten : (value : Value) → operand ∈ value.flatten →
    operand.flatten = [operand]
  | .list items, h => flatten_of_mem_flattenAll items h
  | .null, h | .text _, h | .int _, h | .decimal _, h | .bool _, h | .dateTime _, h | .uuid _, h
  | .reference _, h | .money _, h | .option _, h | .options _, h | .aliased _ _ _, h => by
    obtain rfl := List.mem_singleton.mp h
    rfl

theorem flatten_of_mem_flattenAll : (values : List Value) → operand ∈ flattenAll values →
    operand.flatten = [operand]
  | [], h => by contradiction
  | value :: rest, h => by
    rcases List.mem_append.mp h with h | h
    · exact flatten_of_mem_flatten value h
    · exact flatten_of_mem_flattenAll rest h

end

def Meets (type : AttributeType) (sample? : Option Value) (stored operand : Value) : Prop :=
  ∃ x y, stored.scalar? type sample? = some x ∧ operand.scalar? type (some operand) = some y ∧
    x.equals y = true

end Value

namespace Condition

section Compile

variable {condition : Condition} {context : Context} {aliases : AliasMap} {scope target : Scope}
variable {accessor : Accessor} {p : Predicate}

theorem compile_eq (houter : condition.outer = false) (hother : condition.other? = none)
    (htarget : scope.aliased aliases condition.alias? = .ok target)
    (haccessor : target.accessor context.catalog condition.column = .ok accessor) :
    condition.compile context aliases scope =
      condition.compileOperands context target accessor := by
  unfold compile
  rw [houter, hother, htarget, ok_bind, haccessor]
  rfl

theorem compileOperands_of_compares (h : condition.operator.comparesOperands = true)
    (htype : accessor.type ≠ .options) :
    condition.compileOperands context target accessor =
      if condition.operator.arity.accepts (Value.flattenAll condition.values).length then
        context.present.today >>= fun _ =>
          condition.compileOperator context accessor (Value.flattenAll condition.values) false
      else
        .error (.operandCount condition.operator (Value.flattenAll condition.values).length) := by
  rw [compileOperands_eq, if_neg htype]
  obtain ⟨column, alias?, operator, values, other?, outer⟩ := condition
  cases operator with
  | compare _ | oneOf _ | between _ =>
    congr 1
    simp only [compileAttribute, window?]
    cases context.present.today <;> rfl
  | _ => contradiction

theorem compileOperands_eq_ok_iff (h : condition.operator.comparesOperands = true)
    (htype : accessor.type ≠ .options) :
    condition.compileOperands context target accessor = .ok p ↔
      condition.operator.arity.accepts (Value.flattenAll condition.values).length = true ∧
      (∃ today, context.present.today = .ok today) ∧
      condition.compileOperator context accessor (Value.flattenAll condition.values) false =
        .ok p := by
  rw [compileOperands_of_compares h htype]
  split
  · rename_i harity
    rw [bind_eq_ok_iff]
    constructor
    · rintro ⟨today, htoday, hp⟩
      exact ⟨harity, ⟨today, htoday⟩, hp⟩
    · rintro ⟨-, ⟨today, htoday⟩, hp⟩
      exact ⟨today, htoday, hp⟩
  · rename_i harity
    constructor
    · intro hp
      contradiction
    · rintro ⟨haccepts, -⟩
      exact absurd haccepts harity

end Compile

section Rows

variable {accessor : Accessor} {values : List Value} {row : Record} {stored : Value}

theorem accepts_value {x : Scalar} {test : ValueTest} {sample? : Option Value}
    (hread : accessor.readPresent? row = some stored)
    (hx : stored.scalar? accessor.type sample? = some x) (hfaults : test.faults x = false) :
    (Predicate.value accessor test false sample?).Accepts row ↔ test.holds x = true := by
  have hscalar : Predicate.scalarOf accessor sample? row = some x := by
    rw [Predicate.scalarOf, hread, Option.bind_some, hx]
  rw [Predicate.accepts_iff, Predicate.faults, Predicate.admits, hscalar]
  simp [hfaults]

theorem admits_compileAnyOf :
    (compileAnyOf accessor values false).admits row =
      ((Predicate.scalarOf accessor values.head? row).map fun x =>
        (values.filterMap fun value => value.scalar? accessor.type (some value)).any
          x.equals).getD false := by
  unfold compileAnyOf
  split
  · rename_i hempty
    rw [hempty]
    cases Predicate.scalarOf accessor values.head? row <;> rfl
  · simp only [Predicate.admits, ValueTest.holds, Bool.bne_false]

theorem faults_compileAnyOf : (compileAnyOf accessor values false).faults row = false := by
  unfold compileAnyOf
  split
  · rfl
  · rw [Predicate.faults]
    cases Predicate.scalarOf accessor values.head? row <;> rfl

theorem accepts_compileAnyOf :
    (compileAnyOf accessor values false).Accepts row ↔
      ∃ stored, accessor.readPresent? row = some stored ∧
        ∃ operand ∈ values, Value.Meets accessor.type values.head? stored operand := by
  rw [Predicate.accepts_iff, faults_compileAnyOf, admits_compileAnyOf, Predicate.scalarOf]
  cases accessor.readPresent? row with
  | none => simp
  | some stored =>
    cases hx : stored.scalar? accessor.type values.head? with
    | none => simp [Value.Meets, hx]
    | some x =>
      simp only [Option.bind_some, hx, Option.map_some, Option.getD_some, List.any_eq_true,
        List.mem_filterMap, true_and]
      constructor
      · rintro ⟨y, ⟨operand, hoperand, hy⟩, hequals⟩
        exact ⟨stored, rfl, operand, hoperand, x, y, hx, hy, hequals⟩
      · rintro ⟨_, ⟨rfl⟩, operand, hoperand, _, y, hx', hy, hequals⟩
        obtain rfl := Option.some.inj (hx.symm.trans hx')
        exact ⟨y, ⟨operand, hoperand, hy⟩, hequals⟩

end Rows

end Condition

end RecordQuery
