import RecordQuery.Proofs.Value.KeyEquality

/-!
One form for each value: decimals with the least scale and no signed zero, wherever they stand in
the value. Values are the same if and only if their forms are equal.
-/

namespace RecordQuery

namespace Decimal

theorem stripZeros_least (magnitude scale : Nat) :
    (stripZeros magnitude scale).2 = 0 ∨ (stripZeros magnitude scale).1 % 10 ≠ 0 := by
  induction scale generalizing magnitude with
  | zero => exact Or.inl rfl
  | succ scale ih =>
    unfold stripZeros
    by_cases h : magnitude % 10 = 0
    · rw [if_pos h]
      exact ih (magnitude / 10)
    · rw [if_neg h]
      exact Or.inr h

def IsReduced (d : Decimal) : Prop :=
  (d.scale = 0 ∨ d.magnitude % 10 ≠ 0) ∧ (d.negative = true ↔ d.mantissa < 0)

theorem isReduced_normalize (d : Decimal) : d.normalize.IsReduced := by
  refine ⟨stripZeros_least d.magnitude d.scale, ?_⟩
  have hvalue := stripZeros_value d.magnitude d.scale
  have hpositive : d.isZero = false → 0 < (stripZeros d.magnitude d.scale).1 := by
    intro hzero
    rw [Nat.pos_iff_ne_zero]
    intro hnone
    rw [hnone, Nat.zero_mul, eq_comm, Nat.mul_eq_zero] at hvalue
    have hpower := powerOfTen_pos (stripZeros d.magnitude d.scale).2
    rw [isZero, beq_eq_false_iff_ne] at hzero
    omega
  unfold mantissa normalize
  cases d.negative <;> cases hzero : d.isZero <;> simp [hpositive, hzero]

variable {a b : Decimal}

theorem scale_le_of_same (hb : b.IsReduced) (h : a.same b = true) : b.scale ≤ a.scale := by
  by_contra hless
  obtain ⟨more, hmore⟩ : ∃ more, b.scale = a.scale + (more + 1) := ⟨b.scale - a.scale - 1, by omega⟩
  have hmagnitude : a.magnitude * powerOfTen b.scale = b.magnitude * powerOfTen a.scale := by
    have habs := congrArg Int.natAbs (beq_iff_eq.mp h)
    rwa [Int.natAbs_mul, Int.natAbs_mul, Int.natAbs_natCast, Int.natAbs_natCast, natAbs_mantissa,
      natAbs_mantissa] at habs
  rw [hmore, powerOfTen_add, Nat.mul_left_comm, Nat.mul_comm b.magnitude] at hmagnitude
  have htens := Nat.eq_of_mul_eq_mul_left (powerOfTen_pos a.scale) hmagnitude
  rw [powerOfTen] at htens
  have hlast : b.magnitude % 10 = 0 := by
    rw [← htens, Nat.mul_left_comm, Nat.mul_mod_right]
  rcases hb.1 with hscale | hdigit
  · omega
  · exact hdigit hlast

theorem same_comm (a b : Decimal) : a.same b = b.same a := Bool.beq_comm

theorem IsReduced.eq_of_same (ha : a.IsReduced) (hb : b.IsReduced) (h : a.same b = true) :
    a = b := by
  have hscale : a.scale = b.scale :=
    Nat.le_antisymm (scale_le_of_same ha ((same_comm b a).trans h)) (scale_le_of_same hb h)
  have hmantissa : a.mantissa = b.mantissa := by
    have hpower : (powerOfTen b.scale : Int) ≠ 0 := by
      exact_mod_cast (powerOfTen_pos b.scale).ne'
    rw [same, beq_iff_eq, hscale] at h
    exact Int.eq_of_mul_eq_mul_right hpower h
  have hnegative : a.negative = b.negative := by
    rw [Bool.eq_iff_iff, ha.2, hb.2, hmantissa]
  have hmagnitude : a.magnitude = b.magnitude := by
    rw [← natAbs_mantissa, hmantissa, natAbs_mantissa]
  cases a
  cases b
  simp_all

theorem normalize_eq_iff (a b : Decimal) : a.normalize = b.normalize ↔ a.toRat = b.toRat := by
  constructor
  · intro h
    rw [← toRat_normalize a, h, toRat_normalize]
  · intro h
    apply (isReduced_normalize a).eq_of_same (isReduced_normalize b)
    rw [same_iff, toRat_normalize, toRat_normalize, h]

end Decimal

namespace Value

mutual

def canonical : Value → Value
  | .decimal d => .decimal d.normalize
  | .money amount => .money amount.normalize
  | .aliased aliasName column value => .aliased aliasName column value.canonical
  | .list items => .list (canonicalAll items)
  | value => value

def canonicalAll : List Value → List Value
  | [] => []
  | value :: rest => value.canonical :: canonicalAll rest

end

mutual

theorem same_iff : (a b : Value) → (a.same b = true ↔ a.canonical = b.canonical)
  | .decimal d, b => by
    cases b <;> simp [same, canonical, Decimal.same_iff, Decimal.normalize_eq_iff]
  | .money amount, b => by
    cases b <;> simp [same, canonical, Decimal.same_iff, Decimal.normalize_eq_iff]
  | .aliased aliasName column value, b => by
    cases b with
    | aliased otherName otherColumn other =>
      simp [same, canonical, same_iff value other, and_assoc]
    | _ => simp [same, canonical]
  | .list items, b => by
    cases b with
    | list others => simp [same, canonical, sameAll_iff items others]
    | _ => simp [same, canonical]
  | .null, b | .text _, b | .int _, b | .bool _, b | .dateTime _, b | .uuid _, b
  | .reference _, b | .option _, b | .options _, b => by
    cases b <;> simp [same, canonical]

theorem sameAll_iff : (as bs : List Value) →
    (sameAll as bs = true ↔ canonicalAll as = canonicalAll bs)
  | [], bs => by cases bs <;> simp [sameAll, canonicalAll]
  | a :: rest, bs => by
    cases bs with
    | nil => simp [sameAll, canonicalAll]
    | cons b others => simp [sameAll, canonicalAll, same_iff a b, sameAll_iff rest others]

end

end Value

end RecordQuery
