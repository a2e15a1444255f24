import RecordQuery.Decimal.Basic

namespace RecordQuery.Decimal

/-- `n / 10 ^ places`, to the nearest whole number and to the even one in the middle. A number with
`more` behind it is never in the middle. -/
def roundQuotient (n places : Nat) (more : Bool) : Nat :=
  let power := powerOfTen places
  let quotient := n / power
  let twice := 2 * (n % power)
  if power < twice ∨ (twice = power ∧ (more ∨ quotient % 2 = 1)) then quotient + 1 else quotient

def fitMagnitude? (n : Nat) : (dropped scale : Nat) → Option (Nat × Nat)
  | dropped, 0 =>
    let rounded := roundQuotient n dropped false
    if rounded < limit96 then some (rounded, 0) else none
  | dropped, scale + 1 =>
    let rounded := roundQuotient n dropped false
    if rounded < limit96 then some (rounded, scale + 1) else fitMagnitude? n (dropped + 1) scale

def fit? (mantissa : Int) (scale : Nat) : Option Decimal :=
  (fitMagnitude? mantissa.natAbs 0 scale).bind fun (magnitude, places) =>
    ofParts? (if mantissa < 0 then -(magnitude : Int) else magnitude) places

def add? (a b : Decimal) : Option Decimal :=
  if a.isZero then some b
  else if b.isZero then some a
  else
    let scale := max a.scale b.scale
    fit? (a.mantissa * powerOfTen (scale - a.scale) + b.mantissa * powerOfTen (scale - b.scale))
      scale

def roomFor (quotient : Nat) : (most : Nat) → Nat
  | 0 => 0
  | most + 1 =>
    if quotient * powerOfTen (most + 1) < limit96 then most + 1 else roomFor quotient most

def fitQuotient? (quotient : Nat) (more : Bool) : (scale : Nat) → Option (Nat × Nat)
  | 0 => if quotient < limit96 then some (quotient, 0) else none
  | scale + 1 =>
    if quotient < limit96 then some (quotient, scale + 1)
    else some (roundQuotient quotient 1 more, scale)

/-- Carries a division on behind the point, up to nine digits at a time, until it comes out even
or there is no room for a further digit; then the remainder rounds, half to even. -/
def divideFraction? (quotient remainder divisor scale : Nat) : (rounds : Nat) → Option (Nat × Nat)
  | 0 => some (quotient, scale)
  | rounds + 1 =>
    if remainder = 0 then some (quotient, scale)
    else
      let digits := roomFor quotient (min 9 (28 - scale))
      if digits = 0 then
        let twice := 2 * remainder
        if divisor < twice ∨ (twice = divisor ∧ quotient % 2 = 1) then
          fitQuotient? (quotient + 1) true scale
        else some (quotient, scale)
      else
        let scaled := remainder * powerOfTen digits
        let longer := quotient * powerOfTen digits + scaled / divisor
        if longer < limit96 then
          divideFraction? longer (scaled % divisor) divisor (scale + digits) rounds
        else
          fitQuotient? longer (scaled % divisor != 0) (scale + digits)

def dropZeros (zeros : Nat) (number : Nat × Nat) : Nat × Nat :=
  if zeros ≤ number.2 ∧ number.1 % powerOfTen zeros = 0 then
    (number.1 / powerOfTen zeros, number.2 - zeros)
  else
    number

def dropZeroOctets : (rounds : Nat) → Nat × Nat → Nat × Nat
  | 0, number => number
  | rounds + 1, number =>
    if number.1 % limit32 = 0 ∧ 8 ≤ number.2 ∧ number.1 % powerOfTen 8 = 0 then
      dropZeroOctets rounds (number.1 / powerOfTen 8, number.2 - 8)
    else
      number

/-- The zeros that a division leaves at the end are dropped in groups of eight, four, two and one,
each of the last three at most once. -/
def dropQuotientZeros (number : Nat × Nat) : Nat × Nat :=
  dropZeros 1 (dropZeros 2 (dropZeros 4 (dropZeroOctets 3 number)))

def divide? (magnitude scale divisor : Nat) : Option (Nat × Nat) :=
  if magnitude % divisor = 0 then some (magnitude / divisor, scale)
  else
    (divideFraction? (magnitude / divisor) (magnitude % divisor) divisor scale 29).map
      dropQuotientZeros

def mean? (total : Decimal) (count : Nat) : Option Decimal :=
  if total.isZero then some zero
  else
    (divide? total.magnitude total.scale count).bind fun (quotient, scale) =>
      ofParts? (if total.negative then -(quotient : Int) else quotient) scale

end RecordQuery.Decimal
