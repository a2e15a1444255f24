import RecordQuery.Text.Numeral

namespace RecordQuery

structure Uuid where
  bits : BitVec 128
  deriving DecidableEq

namespace Uuid

def nil : Uuid := ⟨0⟩

instance : Inhabited Uuid := ⟨nil⟩

def ofNat (n : Nat) : Uuid := ⟨BitVec.ofNat 128 n⟩

def toNat (id : Uuid) : Nat := id.bits.toNat

instance : Ord Uuid where
  compare a b := compare a.toNat b.toNat

def hexDigit? (c : Char) : Option Nat :=
  if '0' ≤ c && c ≤ '9' then some (c.toNat - 48)
  else if 'a' ≤ c && c ≤ 'f' then some (c.toNat - 87)
  else if 'A' ≤ c && c ≤ 'F' then some (c.toNat - 55)
  else none

def readHex? (digits : List Char) : Option Nat :=
  digits.foldlM (fun value c => (hexDigit? c).map (16 * value + ·)) 0

def readSimple? (text : List Char) : Option Uuid :=
  if text.length = 32 then (readHex? text).map ofNat else none

def readHyphenated? (text : List Char) : Option Uuid :=
  let isHyphen (i : Nat) : Bool := text[i]? == some '-'
  if text.length = 36 ∧ isHyphen 8 ∧ isHyphen 13 ∧ isHyphen 18 ∧ isHyphen 23 then
    readSimple? (text.take 8 ++ (text.drop 9).take 4 ++ (text.drop 14).take 4 ++
      (text.drop 19).take 4 ++ text.drop 24)
  else
    none

def urnScheme : List Char := ['u', 'r', 'n', ':', 'u', 'u', 'i', 'd', ':']

def read? (text : List Char) : Option Uuid :=
  match text.length with
  | 32 => readSimple? text
  | 36 => readHyphenated? text
  | 38 =>
    if text.head? = some '{' ∧ text.getLast? = some '}' then
      readHyphenated? (text.drop 1).dropLast
    else
      none
  | 45 =>
    if (text.take 9).map Char.toLower = urnScheme then readHyphenated? (text.drop 9) else none
  | _ => none

def hexChars (width n : Nat) : List Char :=
  let digits := Nat.toDigits 16 n
  List.replicate (width - digits.length) '0' ++ digits

def toChars (id : Uuid) : List Char :=
  let digits := hexChars 32 id.toNat
  digits.take 8 ++ '-' :: (digits.drop 8).take 4 ++ '-' :: (digits.drop 12).take 4 ++
    '-' :: (digits.drop 16).take 4 ++ '-' :: digits.drop 20

def text (id : Uuid) : String := String.ofList id.toChars

instance : ToString Uuid := ⟨text⟩

end Uuid

end RecordQuery
