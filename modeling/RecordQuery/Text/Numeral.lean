import RecordQuery.Magnitude

namespace RecordQuery.Text

def isDigit (c : Char) : Bool :=
  '0' ≤ c && c ≤ '9'

def digitValue (c : Char) : Nat :=
  c.toNat - 48

def digitsValueFrom (start : Nat) (digits : List Char) : Nat :=
  digits.foldl (fun value c => 10 * value + digitValue c) start

def digitsValue (digits : List Char) : Nat :=
  digitsValueFrom 0 digits

def readNat? (text : List Char) : Option Nat :=
  if text.isEmpty || !text.all isDigit then none else some (digitsValue text)

def readInt? : List Char → Option Int
  | '-' :: digits => (readNat? digits).map fun n => -(n : Int)
  | '+' :: digits => (readNat? digits).map fun n => (n : Int)
  | digits => (readNat? digits).map fun n => (n : Int)

def readUnsigned? : List Char → Option Nat
  | '+' :: digits => readNat? digits
  | digits => readNat? digits

def natChars (n : Nat) : List Char :=
  Nat.toDigits 10 n

def intChars : Int → List Char
  | .ofNat n => natChars n
  | .negSucc n => '-' :: natChars (n + 1)

def paddedChars (width n : Nat) : List Char :=
  let digits := natChars n
  List.replicate (width - digits.length) '0' ++ digits

def natText (n : Nat) : String :=
  String.ofList (natChars n)

def intText (n : Int) : String :=
  String.ofList (intChars n)

def readInt64? (text : List Char) : Option Int64 :=
  (readInt? text).bind fun n =>
    if FitsInt64 n then some (Int64.ofInt n) else none

def readInt32? (text : List Char) : Option Int32 :=
  (readInt? text).bind fun n =>
    if FitsInt32 n then some (Int32.ofInt n) else none

theorem digitsValueFrom_append (start : Nat) (first second : List Char) :
    digitsValueFrom start (first ++ second) =
      digitsValueFrom (digitsValueFrom start first) second := by
  simp [digitsValueFrom]

end RecordQuery.Text
