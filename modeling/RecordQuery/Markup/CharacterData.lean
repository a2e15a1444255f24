import RecordQuery.Markup.Name
import RecordQuery.Text.Numeral

/-!
Character data: characters written as themselves or by reference. Line ends of the characters that
are written as themselves become line feeds in text and spaces in attribute values; a character
that is written by reference stays what it is.
-/

namespace RecordQuery.Markup

inductive Character where
  | literal (c : Char)
  | referenced (c : Char)
  deriving DecidableEq, Repr

namespace Reference

def hexDigit? (c : Char) : Option Nat :=
  if '0' ≤ c ∧ c ≤ '9' then some (c.toNat - 48)
  else if 'a' ≤ c ∧ c ≤ 'f' then some (c.toNat - 87)
  else if 'A' ≤ c ∧ c ≤ 'F' then some (c.toNat - 55)
  else none

def hexNumber? (digits : List Char) : Option Nat :=
  if digits.isEmpty then none
  else digits.foldlM (fun value c => (hexDigit? c).map fun digit => 16 * value + digit) 0

def ofNumber? (n : Nat) : Option Char :=
  if n < limit32 then
    let c := if n.isValidChar then Char.ofNat n else '\uFFFD'
    if isAllowed c then some c else none
  else none

def character? : List Char → Option Char
  | '#' :: 'x' :: digits => (hexNumber? digits).bind ofNumber?
  | '#' :: digits => (Text.readNat? digits).bind ofNumber?
  | name =>
    if name = "amp".toList then some '&'
    else if name = "lt".toList then some '<'
    else if name = "gt".toList then some '>'
    else if name = "quot".toList then some '"'
    else if name = "apos".toList then some '\''
    else none

end Reference

namespace Character

def ofCharsFrom? : Option (List Char) → List Char → Option (List Character)
  | none, [] => some []
  | some _, [] => none
  | none, c :: rest =>
    if c = '&' then ofCharsFrom? (some []) rest
    else (ofCharsFrom? none rest).map (.literal c :: ·)
  | some begun, c :: rest =>
    if c = ';' then
      (Reference.character? begun.reverse).bind fun found =>
        (ofCharsFrom? none rest).map (.referenced found :: ·)
    else ofCharsFrom? (some (c :: begun)) rest

def ofChars? (text : List Char) : Option (List Character) :=
  ofCharsFrom? none text

/-- Text with its line ends as line feeds: a carriage return before a line feed is dropped, and any
other becomes a line feed. One before a reference is kept, and so is one that ends the text behind
a reference. -/
def withLineFeeds : Bool → List Character → List Char
  | _, [] => []
  | _, .referenced c :: rest => c :: withLineFeeds true rest
  | afterReference, .literal c :: rest =>
    if c = '\r' then
      match rest with
      | [] => [if afterReference then '\r' else '\n']
      | .literal d :: _ =>
        if d = '\n' then withLineFeeds false rest else '\n' :: withLineFeeds false rest
      | .referenced _ :: _ => '\r' :: withLineFeeds false rest
    else c :: withLineFeeds false rest

def withSpaces : List Character → List Char
  | [] => []
  | .referenced c :: rest => c :: withSpaces rest
  | .literal c :: rest =>
    if c = '\r' ∧ rest.head? = some (.literal '\n') then withSpaces rest
    else (if isSpace c then ' ' else c) :: withSpaces rest

end Character

def plainText (text : List Char) : String :=
  String.ofList (Character.withLineFeeds false (text.map .literal))

def textOf? (text : List Char) : Option String :=
  (Character.ofChars? text).map fun read => String.ofList (Character.withLineFeeds false read)

def valueOf? (text : List Char) : Option String :=
  (Character.ofChars? text).map fun read => String.ofList (Character.withSpaces read)

end RecordQuery.Markup
