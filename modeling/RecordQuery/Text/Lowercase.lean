import RecordQuery.Text.CaseTable

namespace RecordQuery.Text

def lowerASCII (c : Char) : Char :=
  if 'A' ≤ c ∧ c ≤ 'Z' then Char.ofNat (c.toNat + 32) else c

def lowerChar (c : Char) : List Char :=
  if c.toNat < 0x80 then [lowerASCII c]
  else if c = 'İ' then ['i', '\u0307']
  else match caseRuns.findSome? (·.lower? c.toNat) with
    | some point => [Char.ofNat point]
    | none => [c]

def casedNext (rest : List Char) : Bool :=
  ((rest.dropWhile isCaseIgnorable).head?.map isCased).getD false

def lowerAfter (before : List Char) : List Char → List Char
  | [] => []
  | c :: rest =>
    let lowered :=
      if c = 'Σ' then [if casedNext before && !casedNext rest then 'ς' else 'σ']
      else lowerChar c
    lowered ++ lowerAfter (c :: before) rest

def lowerChars (text : List Char) : List Char :=
  lowerAfter [] text

def lowercase (text : String) : String :=
  String.ofList (lowerChars text.toList)

def lowercaseASCII (text : String) : String :=
  String.ofList (text.toList.map lowerASCII)

end RecordQuery.Text
