import RecordQuery.Text.Numeral

/-!
Decimal numbers with a kept scale: a magnitude of 96 bits with a sign, and at most 28 places. Scale
and sign belong to the written form: zeros can have both, and comparison looks at the value alone.
-/

namespace RecordQuery

structure Decimal where
  negative : Bool
  magnitude : Nat
  scale : Nat
  bounded : magnitude < limit96
  scale_le : scale ≤ 28
  deriving DecidableEq

namespace Decimal

def mantissa (d : Decimal) : Int :=
  if d.negative then -(d.magnitude : Int) else d.magnitude

theorem natAbs_mantissa (d : Decimal) : d.mantissa.natAbs = d.magnitude := by
  unfold mantissa
  split
  · rw [Int.natAbs_neg, Int.natAbs_natCast]
  · rw [Int.natAbs_natCast]

def signed? (negative : Bool) (magnitude scale : Nat) : Option Decimal :=
  if h : magnitude < limit96 ∧ scale ≤ 28 then some ⟨negative, magnitude, scale, h.1, h.2⟩
  else none

def ofParts? (mantissa : Int) (scale : Nat) : Option Decimal :=
  signed? (decide (mantissa < 0)) mantissa.natAbs scale

theorem signed_natAbs (n : Int) : (if n < 0 then -(n.natAbs : Int) else n.natAbs) = n := by
  split <;> omega

theorem mantissa_of_ofParts? {mantissa : Int} {scale : Nat} (hroom : mantissa.natAbs < limit96)
    (hplaces : scale ≤ 28) : ∃ found, ofParts? mantissa scale = some found ∧
      found.mantissa = mantissa ∧ found.scale = scale := by
  refine ⟨_, dif_pos ⟨hroom, hplaces⟩, ?_, rfl⟩
  rw [Decimal.mantissa]
  simpa only [decide_eq_true_eq] using signed_natAbs mantissa

def zero : Decimal := ⟨false, 0, 0, by decide, by decide⟩

instance : Inhabited Decimal := ⟨zero⟩

theorem natAbs_toInt_lt (n : Int64) : n.toInt.natAbs < limit96 := by
  have := n.le_toInt
  have := n.toInt_lt
  unfold limit96
  omega

def ofInt64 (n : Int64) : Decimal :=
  ⟨decide (n.toInt < 0), n.toInt.natAbs, 0, natAbs_toInt_lt n, by decide⟩

theorem mantissa_ofInt64 (n : Int64) : (ofInt64 n).mantissa = n.toInt := by
  rw [ofInt64, mantissa]
  simpa only [decide_eq_true_eq] using signed_natAbs n.toInt

def isZero (d : Decimal) : Bool := d.magnitude == 0

def compareValue (a b : Decimal) : Ordering :=
  compare (a.mantissa * powerOfTen b.scale) (b.mantissa * powerOfTen a.scale)

instance : Ord Decimal := ⟨compareValue⟩

def same (a b : Decimal) : Bool :=
  a.mantissa * powerOfTen b.scale == b.mantissa * powerOfTen a.scale

def isIntegral (d : Decimal) : Bool :=
  d.mantissa % powerOfTen d.scale == 0

def toInt64? (d : Decimal) : Option Int64 :=
  let n := d.mantissa / powerOfTen d.scale
  if d.isIntegral && decide (FitsInt64 n) then some (Int64.ofInt n) else none

def stripZeros (magnitude : Nat) : Nat → Nat × Nat
  | 0 => (magnitude, 0)
  | scale + 1 =>
    if magnitude % 10 = 0 then stripZeros (magnitude / 10) scale else (magnitude, scale + 1)

theorem stripZeros_fst_le (magnitude scale : Nat) :
    (stripZeros magnitude scale).1 ≤ magnitude := by
  induction scale generalizing magnitude with
  | zero => simp [stripZeros]
  | succ scale ih =>
    unfold stripZeros
    split
    · have := ih (magnitude / 10)
      omega
    · simp

theorem stripZeros_snd_le (magnitude scale : Nat) : (stripZeros magnitude scale).2 ≤ scale := by
  induction scale generalizing magnitude with
  | zero => simp [stripZeros]
  | succ scale ih =>
    unfold stripZeros
    split
    · have := ih (magnitude / 10)
      omega
    · simp

def normalize (d : Decimal) : Decimal :=
  ⟨d.negative && !d.isZero, (stripZeros d.magnitude d.scale).1, (stripZeros d.magnitude d.scale).2,
    Nat.lt_of_le_of_lt (stripZeros_fst_le _ _) d.bounded,
    Nat.le_trans (stripZeros_snd_le _ _) d.scale_le⟩

def toChars (d : Decimal) : List Char :=
  let digits := Text.paddedChars (d.scale + 1) d.magnitude
  let whole := digits.take (digits.length - d.scale)
  let fraction := digits.drop (digits.length - d.scale)
  let unsigned := if fraction.isEmpty then whole else whole ++ '.' :: fraction
  if d.negative then '-' :: unsigned else unsigned

def text (d : Decimal) : String := String.ofList d.toChars

instance : ToString Decimal := ⟨text⟩

end Decimal

end RecordQuery
