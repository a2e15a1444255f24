import RecordQuery.Proofs.Calendar.DayNumber
import RecordQuery.Proofs.Value.Comparison
import RecordQuery.Proofs.Value.Keys

namespace RecordQuery

instance : Std.LawfulEqOrd Uuid where
  eq_of_compare := by
    intro a b h
    have hbits : a.bits = b.bits := BitVec.eq_of_toNat_eq (Nat.compare_eq_eq.mp h)
    cases a
    cases b
    exact congrArg _ hbits

instance : Std.LawfulEqOrd Instant where
  eq_of_compare := by
    intro s t h
    obtain ⟨hdate, h⟩ := Ordering.then_eq_eq.mp h
    obtain ⟨hsecond, hnano⟩ := Ordering.then_eq_eq.mp h
    have hdate := Date.number_injective (Std.LawfulEqOrd.eq_of_compare hdate)
    have hsecond := Nat.compare_eq_eq.mp hsecond
    have hnano := Nat.compare_eq_eq.mp hnano
    cases s
    cases t
    simp_all

namespace Decimal

theorem stripZeros_value (magnitude scale : Nat) :
    (stripZeros magnitude scale).1 * powerOfTen scale =
      magnitude * powerOfTen (stripZeros magnitude scale).2 := by
  induction scale generalizing magnitude with
  | zero => simp [stripZeros]
  | succ scale ih =>
    unfold stripZeros
    split
    · rename_i hzero
      have hrest := ih (magnitude / 10)
      have hten : magnitude = 10 * (magnitude / 10) := by omega
      rw [powerOfTen, Nat.mul_left_comm, hrest, ← Nat.mul_assoc, ← hten]
    · rfl

theorem toRat_normalize (d : Decimal) : d.normalize.toRat = d.toRat := by
  have hvalue : ((stripZeros d.magnitude d.scale).1 : Int) * powerOfTen d.scale =
      d.magnitude * powerOfTen (stripZeros d.magnitude d.scale).2 := by
    exact_mod_cast stripZeros_value d.magnitude d.scale
  rw [← same_iff, same, beq_iff_eq, mantissa, mantissa, normalize]
  cases d.negative with
  | false => exact hvalue
  | true =>
    cases hzero : d.isZero with
    | true =>
      have hmagnitude : d.magnitude = 0 := beq_iff_eq.mp hzero
      rw [hmagnitude] at hvalue
      simpa [hmagnitude] using hvalue
    | false => simpa using hvalue

end Decimal

namespace Scalar

def isDecimal : Scalar → Bool
  | .decimal _ => true
  | _ => false

variable {x y : Scalar} {a b : ℚ}

theorem sameKey_iff_of_number (hx : x.number? = some a) (hy : y.number? = some b) :
    x.sameKey y = true ↔ a = b ∧ x.isDecimal = y.isDecimal := by
  cases x with
  | int m =>
    obtain rfl := Option.some.inj hx
    cases y with
    | int n =>
      obtain rfl := Option.some.inj hy
      rw [sameKey, beq_iff_eq, Int.cast_inj, Int64.toInt_inj]
      simp [isDecimal]
    | decimal d => simp [sameKey, isDecimal]
    | _ => contradiction
  | decimal c =>
    obtain rfl := Option.some.inj hx
    cases y with
    | int n => simp [sameKey, isDecimal]
    | decimal d =>
      obtain rfl := Option.some.inj hy
      rw [sameKey, Decimal.same_iff]
      simp [isDecimal]
    | _ => contradiction
  | _ => contradiction

theorem equals_eq_sameKey (h : x.number? = none ∨ y.number? = none) :
    x.equals y = x.sameKey y := by
  rw [Bool.eq_iff_iff, equals, beq_iff_eq]
  cases x with
  | int | decimal =>
    rcases h with h | h
    · contradiction
    · cases y <;> simp_all [order?, sameKey, number?]
  | _ => cases y <;> simp [order?, sameKey]

def Divided (x y : Scalar) : Prop :=
  x.isDecimal ≠ y.isDecimal ∧ ∃ a, x.number? = some a ∧ y.number? = some a

theorem equals_iff (x y : Scalar) :
    x.equals y = true ↔ x.sameKey y = true ∨ x.Divided y := by
  unfold Divided
  cases hx : x.number? with
  | none => simp [equals_eq_sameKey (Or.inl hx)]
  | some a =>
    cases hy : y.number? with
    | none => simp [equals_eq_sameKey (Or.inr hy)]
    | some b =>
      rw [equals_iff_of_number hx hy, sameKey_iff_of_number hx hy]
      by_cases h : x.isDecimal = y.isDecimal <;> simp [h, eq_comm]

theorem not_sameKey_of_divided (h : x.Divided y) : ¬ x.sameKey y = true := by
  obtain ⟨hne, a, hx, hy⟩ := h
  rw [sameKey_iff_of_number hx hy]
  exact fun heq => hne heq.2

end Scalar

namespace Value

variable {value a b : Value} {key k l : Scalar}

def isDecimal (value : Value) : Bool :=
  match value.unwrap with
  | .decimal _ | .money _ => true
  | _ => false

theorem number?_key (h : value.key? = some key) :
    key.number? = value.number? ∧ key.isDecimal = value.isDecimal := by
  unfold key? at h
  unfold number? isDecimal
  cases hvalue : value.unwrap with
  | text content =>
    rw [hvalue] at h
    dsimp only at h
    split at h <;> obtain rfl := Option.some.inj h <;> exact ⟨rfl, rfl⟩
  | option code =>
    rw [hvalue] at h
    obtain rfl := Option.some.inj h
    refine ⟨?_, rfl⟩
    rw [Scalar.number?, Int32.toInt_toInt64]
  | decimal d | money d =>
    rw [hvalue] at h
    obtain rfl := Option.some.inj h
    refine ⟨?_, rfl⟩
    rw [Scalar.number?, Decimal.toRat_normalize]
  | null | aliased | list =>
    rw [hvalue] at h
    contradiction
  | _ =>
    rw [hvalue] at h
    obtain rfl := Option.some.inj h
    exact ⟨rfl, rfl⟩

theorem divided_keys_iff (ha : a.key? = some k) (hb : b.key? = some l) :
    k.Divided l ↔
      a.isDecimal ≠ b.isDecimal ∧ ∃ r, a.number? = some r ∧ b.number? = some r := by
  obtain ⟨hanumber, hadecimal⟩ := number?_key ha
  obtain ⟨hbnumber, hbdecimal⟩ := number?_key hb
  rw [Scalar.Divided, hanumber, hadecimal, hbnumber, hbdecimal]

/-- Values with the same key have keys that compare as equal. The two equalities of keys agree
except for one number that the one value holds as a whole number and the other as a decimal. -/
theorem sameKey_iff_equals_iff (ha : a.key? = some k) (hb : b.key? = some l) :
    (k.sameKey l = true → k.equals l = true) ∧
      ((k.sameKey l = true ↔ k.equals l = true) ↔
        ¬ (a.isDecimal ≠ b.isDecimal ∧ ∃ r, a.number? = some r ∧ b.number? = some r)) := by
  rw [← divided_keys_iff ha hb, Scalar.equals_iff]
  refine ⟨Or.inl, fun h hdivided => ?_, fun h => ?_⟩
  · exact Scalar.not_sameKey_of_divided hdivided (h.mpr (Or.inr hdivided))
  · exact ⟨Or.inl, fun hor => hor.resolve_right h⟩

def oneInHundredths : Decimal := ⟨false, 100, 2, by decide, by decide⟩

def oneWhole : Decimal := .ofInt64 1

theorem sameKey_iff_equals_iff_hundredths :
    ∃ k l, (Value.decimal oneInHundredths).key? = some k ∧ (Value.money oneWhole).key? = some l ∧
      (k.sameKey l = true ↔ k.equals l = true) := by
  obtain ⟨-, hiff⟩ :=
    sameKey_iff_equals_iff (a := .decimal oneInHundredths) (b := .money oneWhole) rfl rfl
  exact ⟨_, _, rfl, rfl, hiff.mpr fun h => h.1 rfl⟩

theorem exists_equals_not_sameKey :
    ¬ ∀ (a b : Value) (k l : Scalar), a.key? = some k → b.key? = some l →
      (k.sameKey l = true ↔ k.equals l = true) := by
  intro h
  have hsame :=
    (h (.int 1) (.decimal oneWhole) (.int 1) (.decimal oneWhole.normalize) rfl rfl).mpr rfl
  contradiction

end Value

end RecordQuery
