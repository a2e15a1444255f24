import Mathlib.Algebra.Order.Field.Basic
import Mathlib.Data.Rat.Cast.Order
import Mathlib.Order.Compare
import RecordQuery.Proofs.Text.Numerals
import RecordQuery.Value.Scalar

/-!
Numbers as the rational numbers that they are: decimals, scalars and values. Beside an attribute of
whole numbers a fraction, or a number beyond 64 bits, has no reading, and counts as the least number
of 64 bits.
-/

namespace RecordQuery

theorem compare_intCast (m n : Int) : compare (m : ℚ) n = compare m n := by
  rcases lt_trichotomy m n with h | h | h
  · rw [compare_lt_iff_lt.mpr h, compare_lt_iff_lt.mpr (Int.cast_lt.mpr h)]
  · rw [compare_eq_iff_eq.mpr h, compare_eq_iff_eq.mpr (congrArg _ h)]
  · rw [compare_gt_iff_gt.mpr h, compare_gt_iff_gt.mpr (Int.cast_lt.mpr h)]

namespace Decimal

def toRat (d : Decimal) : ℚ := d.mantissa / powerOfTen d.scale

theorem toRat_ofInt64 (n : Int64) : (ofInt64 n).toRat = n.toInt := by
  rw [toRat, mantissa_ofInt64]
  simp [ofInt64, powerOfTen]

theorem compare_eq (a b : Decimal) : compare a b = compare a.toRat b.toRat := by
  have ha : (0 : ℚ) < powerOfTen a.scale := Nat.cast_pos.mpr (powerOfTen_pos a.scale)
  have hb : (0 : ℚ) < powerOfTen b.scale := Nat.cast_pos.mpr (powerOfTen_pos b.scale)
  have hcross : compare a b = compare ((a.mantissa * powerOfTen b.scale : Int) : ℚ)
      ((b.mantissa * powerOfTen a.scale : Int) : ℚ) := (compare_intCast _ _).symm
  rw [hcross]
  push_cast
  rcases lt_trichotomy a.toRat b.toRat with h | h | h
  · rw [compare_lt_iff_lt.mpr h, compare_lt_iff_lt]
    exact (div_lt_div_iff₀ ha hb).mp h
  · rw [compare_eq_iff_eq.mpr h, compare_eq_iff_eq]
    exact (div_eq_div_iff ha.ne' hb.ne').mp h
  · rw [compare_gt_iff_gt.mpr h, compare_gt_iff_gt]
    exact (div_lt_div_iff₀ hb ha).mp h

theorem toInt64?_eq_some_iff (d : Decimal) (n : Int64) :
    d.toInt64? = some n ↔ d.toRat = n.toInt := by
  have hpower : (powerOfTen d.scale : Int) ≠ 0 := by
    have := powerOfTen_pos d.scale
    omega
  have hwhole : d.toRat = n.toInt ↔ d.mantissa = n.toInt * powerOfTen d.scale := by
    have hcast : ((powerOfTen d.scale : Nat) : ℚ) ≠ 0 :=
      Nat.cast_ne_zero.mpr (powerOfTen_pos d.scale).ne'
    rw [toRat, div_eq_iff hcast]
    exact_mod_cast Iff.rfl
  rw [hwhole, toInt64?, isIntegral]
  constructor
  · intro h
    split at h
    · rename_i hfits
      rw [Bool.and_eq_true, beq_iff_eq, decide_eq_true_eq] at hfits
      obtain ⟨hdvd, hlow, hhigh⟩ := hfits
      rw [← Option.some.inj h, Int64.toInt_ofInt_of_le hlow hhigh]
      exact (Int.ediv_mul_cancel (Int.dvd_of_emod_eq_zero hdvd)).symm
    · contradiction
  · intro h
    rw [h, Int.mul_emod_left, Int.mul_ediv_cancel _ hpower, if_pos, Int64.ofInt_toInt]
    simpa using Text.fitsInt64_toInt n

end Decimal

namespace Scalar

def number? : Scalar → Option ℚ
  | .int n => some n.toInt
  | .decimal d => some d.toRat
  | _ => none

theorem order?_number {x y : Scalar} {a b : ℚ} (hx : x.number? = some a) (hy : y.number? = some b) :
    x.order? y = some (compare a b) := by
  cases x with
  | int m =>
    obtain rfl := Option.some.inj hx
    cases y with
    | int n =>
      obtain rfl := Option.some.inj hy
      rw [compare_intCast, order?]
    | decimal d =>
      obtain rfl := Option.some.inj hy
      rw [← Decimal.toRat_ofInt64, ← Decimal.compare_eq, order?]
    | _ => contradiction
  | decimal c =>
    obtain rfl := Option.some.inj hx
    cases y with
    | int n =>
      obtain rfl := Option.some.inj hy
      rw [← Decimal.toRat_ofInt64, ← Decimal.compare_eq, order?]
    | decimal d =>
      obtain rfl := Option.some.inj hy
      rw [← Decimal.compare_eq, order?]
    | _ => contradiction
  | _ => contradiction

theorem equals_iff_of_number {x y : Scalar} {a b : ℚ} (hx : x.number? = some a)
    (hy : y.number? = some b) : x.equals y = true ↔ a = b := by
  rw [equals, order?_number hx hy, beq_iff_eq, Option.some.injEq, compare_eq_iff_eq]

end Scalar

def IsInt64 (a : ℚ) : Prop := a.den = 1 ∧ FitsInt64 a.num

instance : DecidablePred IsInt64 := fun a =>
  inferInstanceAs (Decidable (a.den = 1 ∧ FitsInt64 a.num))

theorem isInt64_toInt (n : Int64) : IsInt64 n.toInt := by
  rw [IsInt64, Rat.den_intCast, Rat.num_intCast]
  exact ⟨rfl, Text.fitsInt64_toInt n⟩

theorem exists_of_isInt64 {a : ℚ} (h : IsInt64 a) : ∃ n : Int64, a = n.toInt := by
  obtain ⟨hden, hlow, hhigh⟩ := h
  refine ⟨Int64.ofInt a.num, ?_⟩
  rw [Int64.toInt_ofInt_of_le hlow hhigh]
  exact (Rat.coe_int_num_of_den_eq_one hden).symm

namespace AttributeType

def isWhole : AttributeType → Bool
  | .int | .option => true
  | _ => false

def Reads (type : AttributeType) (a : ℚ) : Prop := type.isWhole = true → IsInt64 a

instance (type : AttributeType) : DecidablePred type.Reads := fun a =>
  inferInstanceAs (Decidable (type.isWhole = true → IsInt64 a))

def readAs (type : AttributeType) (a : ℚ) : ℚ :=
  if type.Reads a then a else Value.noNumber.toInt

theorem readAs_of_reads {type : AttributeType} {a : ℚ} (h : type.Reads a) : type.readAs a = a :=
  if_pos h

end AttributeType

namespace Value

variable {value : Value} {a : ℚ}

def number? (value : Value) : Option ℚ :=
  match value.unwrap with
  | .int n => some n.toInt
  | .option code => some code.toInt
  | .decimal d | .money d => some d.toRat
  | _ => none

theorem number?_scalarOfInt (n : Int64) (type : AttributeType) :
    (scalarOfInt n type).number? = some (type.readAs n.toInt) := by
  rw [AttributeType.readAs_of_reads fun _ => isInt64_toInt n]
  cases type with
  | decimal | money => exact congrArg some (Decimal.toRat_ofInt64 n)
  | _ => rfl

theorem toInt_getD_toInt64? (d : Decimal) {type : AttributeType} (h : type.isWhole = true) :
    ((d.toInt64?.getD noNumber).toInt : ℚ) = type.readAs d.toRat := by
  cases hd : d.toInt64? with
  | some n =>
    have hn := (d.toInt64?_eq_some_iff n).mp hd
    rw [hn, AttributeType.readAs_of_reads fun _ => isInt64_toInt n]
    rfl
  | none =>
    rw [AttributeType.readAs, if_neg]
    · rfl
    · intro hreads
      obtain ⟨n, hn⟩ := exists_of_isInt64 (hreads h)
      rw [(d.toInt64?_eq_some_iff n).mpr hn] at hd
      contradiction

theorem exists_number_of_decimal {d : Decimal} {n : Int64} (hn : n = d.toInt64?.getD noNumber)
    (type : AttributeType) :
    ∃ x, (match type with
        | .int | .option => some (Scalar.int n)
        | _ => some (Scalar.decimal d) : Option Scalar) = some x ∧
      x.number? = some (type.readAs d.toRat) := by
  cases type with
  | int | option =>
    rw [hn]
    exact ⟨_, rfl, congrArg some (toInt_getD_toInt64? d rfl)⟩
  | _ =>
    have hreads {type : AttributeType} (h : type.isWhole = false) : type.Reads d.toRat :=
      fun hwhole => by rw [h] at hwhole; contradiction
    exact ⟨_, rfl, congrArg some (AttributeType.readAs_of_reads (hreads rfl)).symm⟩

theorem scalar?_number (h : value.number? = some a) (type : AttributeType)
    (sample? : Option Value) :
    ∃ x, value.scalar? type sample? = some x ∧ x.number? = some (type.readAs a) := by
  unfold number? at h
  unfold scalar?
  cases hunwrap : value.unwrap with
  | int n =>
    rw [hunwrap] at h
    obtain rfl := Option.some.inj h
    exact ⟨_, rfl, number?_scalarOfInt n type⟩
  | option code =>
    rw [hunwrap] at h
    obtain rfl := Option.some.inj h
    refine ⟨_, rfl, ?_⟩
    rw [number?_scalarOfInt, Int32.toInt_toInt64]
  | decimal d =>
    rw [hunwrap] at h
    obtain rfl := Option.some.inj h
    have hwhole : value.wholeNumber = d.toInt64?.getD noNumber := by
      unfold wholeNumber
      rw [hunwrap]
    exact exists_number_of_decimal hwhole type
  | money amount =>
    rw [hunwrap] at h
    obtain rfl := Option.some.inj h
    have hwhole : value.wholeNumber = amount.toInt64?.getD noNumber := by
      unfold wholeNumber
      rw [hunwrap]
    exact exists_number_of_decimal hwhole type
  | _ =>
    rw [hunwrap] at h
    contradiction

end Value

end RecordQuery
