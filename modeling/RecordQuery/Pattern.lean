import RecordQuery.Text.Lowercase

/-!
Patterns for text: `%` stands for any sequence of characters, `_` for one character, and `[a-f]`
or `[^a-f]` for one character inside or outside of a class. Case does not count.
-/

namespace RecordQuery

inductive ClassItem where
  | char (c : Char)
  | range (low high : Char)
  deriving DecidableEq, Repr

namespace ClassItem

def admits (item : ClassItem) (c : Char) : Bool :=
  match item with
  | .char x => x == c
  | .range low high => low ≤ c && c ≤ high

def ofChars : List Char → List ClassItem
  | low :: '-' :: high :: rest => .range low high :: ofChars rest
  | c :: rest => .char c :: ofChars rest
  | [] => []

end ClassItem

inductive Token where
  | anySequence
  | anyChar
  | oneOf (negated : Bool) (items : List ClassItem)
  | literal (c : Char)
  deriving DecidableEq, Repr

def Text.anySuffix (property : List Char → Bool) : List Char → Bool
  | [] => property []
  | c :: rest => property (c :: rest) || anySuffix property rest

namespace Token

def admits (token : Token) (c : Char) : Bool :=
  match token with
  | .anySequence => true
  | .anyChar => true
  | .oneOf negated items => items.any (·.admits c) != negated
  | .literal x => x == c

def closeClass? (negated : Bool) (inside : List Char) : Option (Token × List Char) :=
  match inside.dropWhile (· != ']') with
  | [] => none
  | _ :: rest => some (.oneOf negated (ClassItem.ofChars (inside.takeWhile (· != ']'))), rest)

def readClass? : List Char → Option (Token × List Char)
  | '^' :: inside => closeClass? true inside
  | inside => closeClass? false inside

theorem length_lt_of_closeClass? {negated : Bool} {inside rest : List Char} {token : Token}
    (h : closeClass? negated inside = some (token, rest)) : rest.length < inside.length := by
  have shorter := (List.dropWhile_suffix (· != ']') (l := inside)).length_le
  unfold closeClass? at h
  split at h
  · cases h
  · rename_i dropped
    rw [dropped] at shorter
    simp only [Option.some.injEq, Prod.mk.injEq] at h
    obtain ⟨-, rfl⟩ := h
    simpa [Nat.add_one_le_iff] using shorter

theorem length_lt_of_readClass? {text rest : List Char} {token : Token}
    (h : readClass? text = some (token, rest)) : rest.length < text.length := by
  unfold readClass? at h
  split at h
  · have := length_lt_of_closeClass? h
    simp only [List.length_cons]
    omega
  · exact length_lt_of_closeClass? h

def consSequence : List Token → List Token
  | .anySequence :: rest => .anySequence :: rest
  | tokens => .anySequence :: tokens

def ofChars (text : List Char) : List Token :=
  match text with
  | [] => []
  | '%' :: rest => consSequence (ofChars rest)
  | '_' :: rest => .anyChar :: ofChars rest
  | '[' :: rest =>
    match h : readClass? rest with
    | some (token, after) =>
      have : after.length < rest.length := length_lt_of_readClass? h
      token :: ofChars after
    | none => .literal '[' :: ofChars rest
  | c :: rest => .literal c :: ofChars rest
termination_by text.length

def allMatch : List Token → List Char → Bool
  | [], text => text.isEmpty
  | .anySequence :: tokens, text => Text.anySuffix (allMatch tokens) text
  | _ :: _, [] => false
  | token :: tokens, c :: rest => token.admits c && allMatch tokens rest

end Token

inductive Pattern where
  | exact (text : List Char)
  | startsWith (text : List Char)
  | endsWith (text : List Char)
  | contains (text : List Char)
  | wildcard (tokens : List Token)
  deriving DecidableEq, Repr

namespace Pattern

def ofLowered (text : List Char) : Pattern :=
  if text.contains '_' || text.contains '[' then
    .wildcard (Token.ofChars text)
  else
    let leading := text.head? == some '%'
    let trailing := text.getLast? == some '%'
    let body := if leading then text.tail else text
    let core := if trailing then body.dropLast else body
    if core.contains '%' then
      .wildcard (Token.ofChars text)
    else
      match leading, trailing with
      | true, true => .contains core
      | true, false => .endsWith core
      | false, true => .startsWith core
      | false, false => .exact core

def ofString (text : String) : Pattern :=
  ofLowered (Text.lowerChars text.toList)

def admitsLowered (pattern : Pattern) (text : List Char) : Bool :=
  match pattern with
  | .exact part => text == part
  | .startsWith part => part.isPrefixOf text
  | .endsWith part => part.isSuffixOf text
  | .contains part => Text.anySuffix part.isPrefixOf text
  | .wildcard tokens => Token.allMatch tokens text

def admits (pattern : Pattern) (text : String) : Bool :=
  pattern.admitsLowered (Text.lowerChars text.toList)

end Pattern

end RecordQuery
