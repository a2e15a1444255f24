namespace RecordQuery.Markup

def isAllowed (c : Char) : Bool :=
  let n := c.toNat
  0x20 ≤ n && n != 0xFFFE && n != 0xFFFF || n == 0x09 || n == 0x0A || n == 0x0D

def isSpace (c : Char) : Bool :=
  c == ' ' || c == '\t' || c == '\r' || c == '\n'

def skipSpaces (text : List Char) : List Char :=
  text.dropWhile isSpace

def inRanges (ranges : List (Nat × Nat)) (c : Char) : Bool :=
  ranges.any fun (low, high) => low ≤ c.toNat && c.toNat ≤ high

def nameStartRanges : List (Nat × Nat) :=
  [(0xC0, 0xD6), (0xD8, 0xF6), (0xF8, 0x2FF), (0x370, 0x37D), (0x37F, 0x1FFF), (0x200C, 0x200D),
    (0x2070, 0x218F), (0x2C00, 0x2FEF), (0x3001, 0xD7FF), (0xF900, 0xFDCF), (0xFDF0, 0xFFFD),
    (0x10000, 0xEFFFF)]

def startsName (c : Char) : Bool :=
  c.isAlpha || c == ':' || c == '_' || inRanges nameStartRanges c

def continuesName (c : Char) : Bool :=
  startsName c || c.isDigit || c == '-' || c == '.' ||
    inRanges [(0xB7, 0xB7), (0x300, 0x36F), (0x203F, 0x2040)] c

def afterName? : List Char → Option (List Char)
  | [] => none
  | c :: rest => if startsName c then some (rest.dropWhile continuesName) else none

structure QualifiedName where
  space : String
  name : String
  deriving DecidableEq, Repr

namespace QualifiedName

def ofParts? (space name : List Char) : Option QualifiedName :=
  if space.head?.all startsName && name.head?.any startsName && !name.contains ':' then
    some ⟨String.ofList space, String.ofList name⟩
  else none

def ofChars? (text : List Char) : Option QualifiedName :=
  match text.dropWhile (· != ':') with
  | [] => ofParts? [] text
  | _ :: name => ofParts? (text.takeWhile (· != ':')) name

def read? (text : List Char) : Option (QualifiedName × List Char) :=
  (ofChars? (text.takeWhile continuesName)).map fun name => (name, text.dropWhile continuesName)

end QualifiedName

end RecordQuery.Markup
