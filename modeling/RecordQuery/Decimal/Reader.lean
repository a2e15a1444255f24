import RecordQuery.Decimal.Basic

namespace RecordQuery.Decimal

structure Reading where
  mantissa : Nat
  scale : Nat
  afterPoint : Bool
  hasDigit : Bool

namespace Reading

def roundBy? (reading : Reading) (dropped : Nat) : Option Reading :=
  if dropped < 5 then some reading
  else if reading.mantissa + 1 < limit96 then
    some { reading with mantissa := reading.mantissa + 1 }
  else if reading.scale = 0 then none
  else some { reading with mantissa := (reading.mantissa + 5) / 10, scale := reading.scale - 1 }

def shortLimit : Nat := 1844674407370954906

def isShort (reading : Reading) : Bool :=
  decide (reading.mantissa / 10 < shortLimit)

/-- Rounds by what stands behind the last digit that fits, digits and underscores alone. The first
digit of it counts; behind a short number an underscore in front of it counts as a zero. -/
def round? (reading : Reading) (dropped : List Char) : Option Reading :=
  if dropped.all fun c => Text.isDigit c || c == '_' then
    match if reading.isShort then dropped else dropped.dropWhile (· == '_') with
    | [] => some reading
    | c :: _ => if c = '_' then some reading else reading.roundBy? (Text.digitValue c)
  else none

end Reading

def readDigits? (reading : Reading) : List Char → Option Reading
  | [] => if reading.hasDigit then some reading else none
  | c :: rest =>
    if reading.afterPoint && decide (28 ≤ reading.scale) then
      reading.round? (c :: rest)
    else if Text.isDigit c then
      let mantissa := 10 * reading.mantissa + Text.digitValue c
      if mantissa < limit96 then
        readDigits? { reading with
          mantissa := mantissa
          scale := if reading.afterPoint then reading.scale + 1 else 0
          hasDigit := true } rest
      else if reading.afterPoint then
        reading.round? (c :: rest)
      else
        none
    else if c = '.' ∧ reading.afterPoint = false then
      readDigits? { reading with afterPoint := true } rest
    else if c = '_' ∧ reading.hasDigit = true then
      readDigits? reading rest
    else
      none

def readUnsigned? (text : List Char) : Option (Nat × Nat) :=
  (readDigits? ⟨0, 0, false, false⟩ text).map fun reading => (reading.mantissa, reading.scale)

def readPlain? (text : List Char) : Option Decimal := do
  match text with
  | '-' :: rest =>
    let (mantissa, scale) ← readUnsigned? rest
    ofParts? (-(mantissa : Int)) scale
  | '+' :: rest =>
    let (mantissa, scale) ← readUnsigned? rest
    ofParts? mantissa scale
  | rest =>
    let (mantissa, scale) ← readUnsigned? rest
    ofParts? mantissa scale

def isExponentMark (c : Char) : Bool := c == 'e' || c == 'E'

def readExponent? (text : List Char) : Option Nat :=
  (Text.readUnsigned? text).filter (· < limit32)

def shiftLeft? (d : Decimal) (places : Nat) : Option Decimal :=
  if places ≤ d.scale then signed? d.negative d.magnitude (d.scale - places)
  else if places ≤ 28 then ofParts? (d.mantissa * powerOfTen (places - d.scale)) 0
  else none

/-- The decimal with its point moved to the left. Places beyond the last are rounded away, half up,
and the sign stays even where nothing else is left. -/
def shiftRight? (d : Decimal) (places : Nat) : Option Decimal :=
  let scale := d.scale + places
  if 28 < places then none
  else if scale ≤ 28 then signed? d.negative d.magnitude scale
  else
    let power := powerOfTen (scale - 28)
    signed? d.negative ((2 * d.magnitude + power) / (2 * power)) 28

def readScientific? (text : List Char) : Option Decimal := do
  let base ← readPlain? (text.takeWhile fun c => !isExponentMark c)
  match text.dropWhile fun c => !isExponentMark c with
  | [] => none
  | _ :: '-' :: exponent => base.shiftRight? (← readExponent? exponent)
  | _ :: exponent => base.shiftLeft? (← readExponent? exponent)

def read? (text : List Char) : Option Decimal :=
  (readPlain? text).orElse fun _ => readScientific? text

end RecordQuery.Decimal
