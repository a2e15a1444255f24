import RecordQuery.Calendar.Instant
import RecordQuery.Text.Blank
import RecordQuery.Text.Lowercase

namespace RecordQuery.Calendar

inductive TimeUnit where
  | year
  | month
  | day
  | hour
  | minute
  | second
  deriving DecidableEq, Repr

/-- A piece of a written form. A strict number has its full width and nothing in front of it; a
loose one may be shorter and may follow white space, and a loose year may be signed and then of
any width. -/
inductive Field where
  | strict (unit : TimeUnit)
  | loose (unit : TimeUnit)
  | fraction
  | oneOf (chars : List Char)
  | blanks
  deriving DecidableEq, Repr

structure Parts where
  year : Int
  month : Nat
  day : Nat
  hour : Nat
  minute : Nat
  second : Nat
  nano : Nat

namespace Parts

def empty : Parts := ⟨0, 1, 1, 0, 0, 0, 0⟩

def set (parts : Parts) (value : Int) : TimeUnit → Parts
  | .year => { parts with year := value }
  | .month => { parts with month := value.toNat }
  | .day => { parts with day := value.toNat }
  | .hour => { parts with hour := value.toNat }
  | .minute => { parts with minute := value.toNat }
  | .second => { parts with second := value.toNat }

def toInstant? (parts : Parts) : Option Instant := do
  let date ← Date.ofParts? parts.year parts.month parts.day
  if parts.hour < 24 ∧ parts.minute < 60 ∧ parts.second ≤ 60 then
    let minutes := parts.hour * 60 + parts.minute
    if parts.second = 60 then
      Instant.ofParts? date (minutes * 60 + 59) (parts.nano + 1000000000)
    else
      Instant.ofParts? date (minutes * 60 + parts.second) parts.nano
  else
    none

end Parts

def TimeUnit.width : TimeUnit → Nat
  | .year => 4
  | _ => 2

def takeDigits? (least most : Nat) (text : List Char) : Option (List Char × List Char) :=
  let digits := (text.take most).takeWhile Text.isDigit
  if digits.length < least then none else some (digits, text.drop digits.length)

def takeNumber? (least most : Nat) (text : List Char) : Option (Int × List Char) :=
  (takeDigits? least most text).map fun (digits, rest) => (Text.digitsValue digits, rest)

def takeLoose? (unit : TimeUnit) (text : List Char) : Option (Int × List Char) :=
  match unit, Text.trimLeft text with
  | .year, '-' :: rest =>
    (takeNumber? 1 rest.length rest).map fun (value, after) => (-value, after)
  | .year, '+' :: rest => takeNumber? 1 rest.length rest
  | _, rest => takeNumber? 1 unit.width rest

def takeFraction? : List Char → Option (Nat × List Char)
  | '.' :: rest =>
    let digits := rest.takeWhile Text.isDigit
    if digits.isEmpty then none
    else
      let counted := digits.take 9
      some (Text.digitsValue counted * powerOfTen (9 - counted.length), rest.drop digits.length)
  | text => some (0, text)

def takeForm? (parts : Parts) : List Field → List Char → Option (Parts × List Char)
  | [], text => some (parts, text)
  | .strict unit :: form, text =>
    (takeNumber? unit.width unit.width text).bind fun (value, rest) =>
      takeForm? (parts.set value unit) form rest
  | .loose unit :: form, text =>
    (takeLoose? unit text).bind fun (value, rest) =>
      takeForm? (parts.set value unit) form rest
  | .fraction :: form, text =>
    (takeFraction? text).bind fun (nano, rest) =>
      takeForm? { parts with nano } form rest
  | .blanks :: form, text => takeForm? parts form (Text.trimLeft text)
  | .oneOf chars :: form, c :: rest =>
    if chars.contains c then takeForm? parts form rest else none
  | .oneOf _ :: _, [] => none

def readForm? (form : List Field) (text : List Char) : Option Instant :=
  (takeForm? .empty form text).bind fun (parts, rest) =>
    if rest.isEmpty then parts.toInstant? else none

def internetForm : List Field :=
  [.strict .year, .oneOf ['-'], .strict .month, .oneOf ['-'], .strict .day, .oneOf ['T', 't', ' '],
    .strict .hour, .oneOf [':'], .strict .minute, .oneOf [':'], .strict .second, .fraction]

def readSigned? (sign : Int) (text : List Char) : Option Int :=
  match takeNumber? 2 2 text with
  | some (hours, ':' :: rest) =>
    match takeNumber? 2 2 rest with
    | some (minutes, []) =>
      if hours < 24 ∧ minutes < 60 then some (sign * (hours * 3600 + minutes * 60)) else none
    | _ => none
  | _ => none

def readOffset? : List Char → Option Int
  | ['Z'] => some 0
  | ['z'] => some 0
  | '+' :: rest => readSigned? 1 rest
  | '-' :: rest => readSigned? (-1) rest
  | '\u2212' :: rest => readSigned? (-1) rest
  | _ => none

def readInternet? (text : List Char) : Option Instant := do
  let (parts, rest) ← takeForm? .empty internetForm text
  let offset ← readOffset? rest
  let t ← parts.toInstant?
  Instant.ofSecond? t.date (t.second - offset) t.nano

def relaxedForm : List Field :=
  [.loose .year, .blanks, .oneOf ['-'], .blanks, .loose .month, .blanks, .oneOf ['-'], .blanks,
    .loose .day, .oneOf ['T', 't', ' '], .loose .hour, .blanks, .oneOf [':'], .blanks,
    .loose .minute, .blanks, .oneOf [':'], .blanks, .loose .second, .fraction, .blanks]

def takeRelaxedSigned? (sign : Int) (text : List Char) : Option (Int × List Char) :=
  (takeNumber? 2 2 text).bind fun (hours, rest) =>
    let behind := rest.dropWhile fun c => c == ':' || Text.isBlank c
    (takeNumber? 2 2 behind).bind fun (minutes, after) =>
      if hours < 24 ∧ minutes < 60 then some (sign * (hours * 3600 + minutes * 60), after) else none

def takeRelaxedOffset? (text : List Char) : Option (Int × List Char) :=
  if Text.lowercaseASCII (String.ofList (text.take 3)) = "utc" then some (0, text.drop 3)
  else
    match text with
    | 'Z' :: rest => some (0, rest)
    | 'z' :: rest => some (0, rest)
    | '+' :: rest => takeRelaxedSigned? 1 rest
    | '-' :: rest => takeRelaxedSigned? (-1) rest
    | '\u2212' :: rest => takeRelaxedSigned? (-1) rest
    | _ => none

def readRelaxed? (text : List Char) : Option Instant := do
  let (parts, rest) ← takeForm? .empty relaxedForm text
  let (offset, after) ← takeRelaxedOffset? rest
  if after.all Text.isBlank then
    let t ← parts.toInstant?
    Instant.ofSecond? t.date (t.second - offset) t.nano
  else none

def dateForm : List Field :=
  [.loose .year, .oneOf ['-'], .loose .month, .oneOf ['-'], .loose .day]

def slashedDateForm : List Field :=
  [.loose .month, .oneOf ['/'], .loose .day, .oneOf ['/'], .loose .year]

def minuteForm : List Field :=
  [.loose .hour, .oneOf [':'], .loose .minute]

def secondForm : List Field :=
  minuteForm ++ [.oneOf [':'], .loose .second]

def looseForms : List (List Field) := [
  dateForm ++ [.oneOf ['T']] ++ secondForm ++ [.fraction],
  dateForm ++ [.blanks] ++ secondForm ++ [.fraction],
  dateForm ++ [.oneOf ['T']] ++ minuteForm,
  dateForm ++ [.blanks] ++ minuteForm,
  slashedDateForm ++ [.blanks] ++ secondForm,
  dateForm,
  slashedDateForm]

def readChars? (text : List Char) : Option Instant :=
  (readInternet? text).orElse fun _ => looseForms.findSome? fun form => readForm? form text

def readInstant? (text : String) : Option Instant :=
  readChars? (Text.trimChars text.toList)

end RecordQuery.Calendar
