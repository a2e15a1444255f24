namespace RecordQuery

def powerOfTen : Nat → Nat
  | 0 => 1
  | zeros + 1 => 10 * powerOfTen zeros

theorem powerOfTen_pos (zeros : Nat) : 0 < powerOfTen zeros := by
  induction zeros with
  | zero => decide
  | succ zeros ih =>
    rw [powerOfTen]
    omega

theorem powerOfTen_add (m n : Nat) : powerOfTen (m + n) = powerOfTen m * powerOfTen n := by
  induction m with
  | zero => simp [powerOfTen]
  | succ m ih => rw [Nat.succ_add, powerOfTen, ih, powerOfTen, Nat.mul_assoc]

abbrev limit32 : Nat := 4294967296

abbrev limit64 : Nat := 18446744073709551616

abbrev limit96 : Nat := 79228162514264337593543950336

abbrev signedLimit32 : Int := 2147483648

abbrev signedLimit64 : Int := 9223372036854775808

abbrev FitsInt32 (n : Int) : Prop := -signedLimit32 ≤ n ∧ n < signedLimit32

abbrev FitsInt64 (n : Int) : Prop := -signedLimit64 ≤ n ∧ n < signedLimit64

def totalOf : List Nat → Nat
  | [] => 0
  | count :: rest => count + totalOf rest

def saturatingAdd (m n : Nat) : Nat := min (m + n) (limit64 - 1)

def saturatingMul (m n : Nat) : Nat := min (m * n) (limit64 - 1)

theorem saturatingAdd_lt_iff {m n count : Nat} (h : count < limit64) :
    saturatingAdd m n < count ↔ m + n < count := by
  unfold saturatingAdd limit64 at *
  omega

theorem min_saturatingAdd {m n count : Nat} (h : count < limit64) :
    min (saturatingAdd m n) count = min (m + n) count := by
  unfold saturatingAdd limit64 at *
  omega

theorem min_saturatingMul {m n count : Nat} (h : count < limit64) :
    min (saturatingMul m n) count = min (m * n) count := by
  unfold saturatingMul limit64 at *
  omega

end RecordQuery
