import Mathlib.Data.List.Basic
import Mathlib.Tactic.NormNum
import RecordQuery.Proofs.Predicate.Operands
import RecordQuery.Proofs.Value.Rationals

namespace RecordQuery

def Comparison.Relates : Comparison → ℚ → ℚ → Prop
  | .equal, a, b => a = b
  | .notEqual, a, b => a ≠ b
  | .greater, a, b => b < a
  | .greaterEqual, a, b => b ≤ a
  | .less, a, b => a < b
  | .lessEqual, a, b => a ≤ b

theorem Comparison.holds_compare_iff (comparison : Comparison) (a b : ℚ) :
    comparison.holds (compare a b) = true ↔ comparison.Relates a b := by
  rcases lt_trichotomy a b with h | h | h
  · rw [compare_lt_iff_lt.mpr h]
    cases comparison <;> simp [holds, Relates, h, h.le, h.ne, h.not_gt, h.not_ge]
  · rw [compare_eq_iff_eq.mpr h]
    cases comparison <;> simp [holds, Relates, h]
  · rw [compare_gt_iff_gt.mpr h]
    cases comparison <;> simp [holds, Relates, h, h.le, h.ne', h.not_gt, h.not_ge]

namespace Operator

def relatesNumbers : Operator → Bool
  | .compare .notEqual => false
  | .compare _ | .between false => true
  | _ => false

theorem compares_of_relatesNumbers {operator : Operator} (h : operator.relatesNumbers = true) :
    operator.comparesOperands = true := by
  cases operator with
  | compare _ | between _ => rfl
  | _ => contradiction

def Relates : Operator → ℚ → List ℚ → Prop
  | .compare .equal, a, bs => a ∈ bs
  | .compare comparison, a, [b] => comparison.Relates a b
  | .between false, a, [low, high] => low ≤ a ∧ a ≤ high
  | _, _, _ => False

end Operator

namespace Scalar

variable {x y : Scalar} {a b : ℚ}

theorem compares_iff_of_number (hx : x.number? = some a) (hy : y.number? = some b)
    (comparison : Comparison) :
    ((x.order? y).map comparison.holds).getD false = true ↔ comparison.Relates a b := by
  rw [order?_number hx hy]
  exact comparison.holds_compare_iff a b

end Scalar

namespace Condition

variable {accessor : Accessor} {row : Record} {stored low high operand : Value} {a b c : ℚ}

theorem accepts_compileAnyOf_number {values : List Value} {bs : List ℚ}
    (hread : accessor.readPresent? row = some stored) (ha : stored.number? = some a)
    (hbs : List.Forall₂ (fun value b => value.number? = some b) values bs) :
    (compileAnyOf accessor values false).Accepts row ↔
      accessor.type.readAs a ∈ bs.map accessor.type.readAs := by
  obtain ⟨x, hx, hxa⟩ := Value.scalar?_number ha accessor.type values.head?
  have hmeets {value : Value} {b : ℚ} (hb : value.number? = some b) :
      Value.Meets accessor.type values.head? stored value ↔
        accessor.type.readAs a = accessor.type.readAs b := by
    obtain ⟨y, hy, hyb⟩ := Value.scalar?_number hb accessor.type (some value)
    rw [← Scalar.equals_iff_of_number hxa hyb, Value.Meets, hx, hy]
    simp
  rw [accepts_compileAnyOf, hread]
  simp only [Option.some.injEq, exists_eq_left']
  -- the first of all operands stays the sample when the induction has left it behind
  generalize values.head? = sample? at hmeets
  clear hx
  induction hbs with
  | nil => simp
  | cons hb _ ih =>
    simp only [List.mem_cons, exists_eq_or_imp, List.map_cons, hmeets hb, ih]

theorem accepts_compileComparison_number (hread : accessor.readPresent? row = some stored)
    (ha : stored.number? = some a) (hb : operand.number? = some b) (comparison : Comparison) :
    (compileComparison accessor comparison operand).Accepts row ↔
      comparison.Relates (accessor.type.readAs a) (accessor.type.readAs b) := by
  obtain ⟨x, hx, hxa⟩ := Value.scalar?_number ha accessor.type (some operand)
  obtain ⟨y, hy, hyb⟩ := Value.scalar?_number hb accessor.type (some operand)
  rw [compileComparison, hy, accepts_value hread hx rfl]
  exact Scalar.compares_iff_of_number hxa hyb comparison

theorem wholeDay_number {y : Scalar} (hy : y.number? = some b) : wholeDay y = .ok y := by
  cases y with
  | dateTime t => contradiction
  | _ => rfl

theorem accepts_compileRange_number (hread : accessor.readPresent? row = some stored)
    (ha : stored.number? = some a) (hb : low.number? = some b) (hc : high.number? = some c)
    {widened : Bool} {p : Predicate} (hp : compileRange accessor false widened low high = .ok p) :
    p.Accepts row ↔ accessor.type.readAs b ≤ accessor.type.readAs a ∧
      accessor.type.readAs a ≤ accessor.type.readAs c := by
  obtain ⟨x, hx, hxa⟩ := Value.scalar?_number ha accessor.type (some low)
  obtain ⟨y, hy, hyb⟩ := Value.scalar?_number hb accessor.type (some low)
  obtain ⟨z, hz, hzc⟩ := Value.scalar?_number hc accessor.type (some high)
  have hrange : compileRange accessor false widened low high =
      .ok (.value accessor (.range y z) false (some low)) := by
    rw [compileRange, hy, hz]
    simp only [wholeDay_number hzc]
    cases widened <;> rfl
  obtain rfl := Except.ok.inj (hp.symm.trans hrange)
  rw [accepts_value hread hx rfl, ValueTest.holds, Bool.and_eq_true,
    Scalar.compares_iff_of_number hxa hyb, Scalar.compares_iff_of_number hxa hzc]
  rfl

theorem accepts_compileOperator_number {condition : Condition} {context : Context}
    {values : List Value} {bs : List ℚ} {p : Predicate}
    (hoperator : condition.operator.relatesNumbers = true)
    (harity : condition.operator.arity.accepts values.length = true)
    (hread : accessor.readPresent? row = some stored) (ha : stored.number? = some a)
    (hbs : List.Forall₂ (fun value b => value.number? = some b) values bs)
    (hp : condition.compileOperator context accessor values false = .ok p) :
    p.Accepts row ↔
      condition.operator.Relates (accessor.type.readAs a) (bs.map accessor.type.readAs) := by
  obtain ⟨column, alias?, operator, operands, other?, outer⟩ := condition
  cases operator with
  | compare comparison =>
    cases comparison with
    | equal =>
      obtain rfl := Except.ok.inj hp
      exact accepts_compileAnyOf_number hread ha hbs
    | notEqual => contradiction
    | greater | greaterEqual | less | lessEqual =>
      obtain ⟨operand, rfl⟩ := List.length_eq_one_iff.mp (beq_iff_eq.mp harity)
      obtain _ | ⟨hb, _ | _⟩ := hbs
      obtain rfl := Except.ok.inj hp
      exact accepts_compileComparison_number hread ha hb _
  | between negated =>
    cases negated with
    | true => contradiction
    | false =>
      obtain ⟨low, high, rfl⟩ := List.length_eq_two.mp (beq_iff_eq.mp harity)
      obtain _ | ⟨hb, _ | ⟨hc, _ | _⟩⟩ := hbs
      exact accepts_compileRange_number hread ha hb hc hp
  | _ => contradiction

/-- A condition on a number accepts the rows whose number relates to the operands as the operator
says, where numbers without a reading beside the attribute count as the least one of 64 bits. If all
of them have a reading, it is the relation of the numbers themselves. -/
theorem accepts_compile_number {condition : Condition}
    (hoperator : condition.operator.relatesNumbers = true) (houter : condition.outer = false)
    (hother : condition.other? = none) {context : Context} {aliases : AliasMap}
    {scope target : Scope} {p : Predicate}
    (htarget : scope.aliased aliases condition.alias? = .ok target)
    (haccessor : target.accessor context.catalog condition.column = .ok accessor)
    (htype : accessor.type ≠ .options) (hp : condition.compile context aliases scope = .ok p)
    (hread : accessor.readPresent? row = some stored) (ha : stored.number? = some a) {bs : List ℚ}
    (hbs : List.Forall₂ (fun operand b => operand.number? = some b)
      (Value.flattenAll condition.values) bs) :
    (p.Accepts row ↔
      condition.operator.Relates (accessor.type.readAs a) (bs.map accessor.type.readAs)) ∧
    (accessor.type.Reads a → (∀ b ∈ bs, accessor.type.Reads b) →
      (p.Accepts row ↔ condition.operator.Relates a bs)) := by
  rw [compile_eq houter hother htarget haccessor] at hp
  obtain ⟨harity, -, hp⟩ :=
    (compileOperands_eq_ok_iff (Operator.compares_of_relatesNumbers hoperator) htype).mp hp
  have haccepts := accepts_compileOperator_number hoperator harity hread ha hbs hp
  refine ⟨haccepts, fun hreads hall => ?_⟩
  have hmap : bs.map accessor.type.readAs = bs := by
    rw [List.map_congr_left fun b hb => AttributeType.readAs_of_reads (hall b hb), List.map_id']
  rwa [AttributeType.readAs_of_reads hreads, hmap] at haccepts

def companies : Context where
  store := .empty
  catalog := { Catalog.empty with
    entities := [((EntityMetadata.ofName "account").withCode "revenue" .money).withCode
      "employees" .integer] }
  caller := default
  now := .greatest
  pageSize := 0

def sevenFive : Decimal := ⟨false, 75, 1, by decide, by decide⟩

def accountWith (column : String) (value : Value) : Record :=
  ⟨"account", .ofNat 1, .ofList [(column, value)]⟩

theorem toRat_sevenFive : sevenFive.toRat = 75 / 10 := by
  norm_num [Decimal.toRat, Decimal.mantissa, sevenFive, powerOfTen]

theorem accepts_compile_number_revenue : ∃ p,
    compile ⟨"revenue", none, .between false, [.int 7, .decimal sevenFive], none, false⟩ companies
      [] (.root "account") = .ok p ∧ p.Accepts (accountWith "revenue" (.money sevenFive)) := by
  have hp : compile ⟨"revenue", none, .between false, [.int 7, .decimal sevenFive], none, false⟩
    companies [] (.root "account") = .ok _ := rfl
  have hrevenue : (Scope.root "account").accessor companies.catalog "revenue" =
    .ok ⟨"revenue", .money, none⟩ := rfl
  have hread : (⟨"revenue", .money, none⟩ : Accessor).readPresent?
    (accountWith "revenue" (.money sevenFive)) = some (.money sevenFive) := rfl
  obtain ⟨-, hexact⟩ := accepts_compile_number rfl rfl rfl rfl hrevenue (by decide) hp hread rfl
    (.cons rfl (.cons rfl .nil))
  refine ⟨_, hp, (hexact (fun h => by contradiction) (fun _ _ h => by contradiction)).mpr ?_⟩
  have hseven : (7 : Int64).toInt = 7 := by decide
  change ((7 : Int64).toInt : ℚ) ≤ sevenFive.toRat ∧ sevenFive.toRat ≤ sevenFive.toRat
  rw [toRat_sevenFive, hseven]
  norm_num

theorem exists_accepts_not_relates : ¬ ∀ (condition : Condition) (context : Context)
    (aliases : AliasMap) (scope target : Scope) (accessor : Accessor) (p : Predicate) (row : Record)
    (stored : Value) (a : ℚ) (bs : List ℚ), condition.operator.relatesNumbers = true →
    condition.outer = false → condition.other? = none →
    scope.aliased aliases condition.alias? = .ok target →
    target.accessor context.catalog condition.column = .ok accessor → accessor.type ≠ .options →
    condition.compile context aliases scope = .ok p →
    accessor.readPresent? row = some stored → stored.number? = some a →
    List.Forall₂ (fun operand b => operand.number? = some b)
      (Value.flattenAll condition.values) bs →
    p.Accepts row → condition.operator.Relates a bs := by
  intro h
  have hless : sevenFive.toRat < ((5 : Int64).toInt : ℚ) :=
    h ⟨"employees", none, .compare .less, [.int 5], none, false⟩ companies [] (.root "account")
      (.root "account") ⟨"employees", .int, none⟩ _ (accountWith "employees" (.decimal sevenFive))
      (.decimal sevenFive) _ _ rfl rfl rfl rfl rfl (by decide) rfl rfl rfl (.cons rfl .nil) rfl
  have hfive : (5 : Int64).toInt = 5 := by decide
  rw [toRat_sevenFive, hfive] at hless
  norm_num at hless

end Condition

end RecordQuery
