import RecordQuery.Markup.CharacterData

namespace RecordQuery.Markup

abbrev TagAttribute := QualifiedName × String

inductive Event where
  | opening (name : QualifiedName) (attributes : List TagAttribute)
  | closing (name : QualifiedName)
  | text (content : String)
  | spaces (content : String)
  deriving DecidableEq, Repr

def splitAtMark? (mark : List Char) : List Char → Option (List Char × List Char)
  | [] => none
  | c :: rest =>
    match mark.isPrefixOf? (c :: rest) with
    | some behind => some ([], behind)
    | none => (splitAtMark? mark rest).map fun (front, behind) => (c :: front, behind)

def hasMark (mark text : List Char) : Bool :=
  (splitAtMark? mark text).isSome

def readAttribute? (text : List Char) : Option ((QualifiedName × List Char) × List Char) :=
  (QualifiedName.read? text).bind fun (name, behind) =>
    match skipSpaces behind with
    | '=' :: rest =>
      match skipSpaces rest with
      | [] => none
      | quote :: inside =>
        let ends (c : Char) : Bool := c == quote || c == '<'
        if quote = '"' ∨ quote = '\'' then
          match inside.dropWhile (!ends ·) with
          | [] => none
          | last :: rest =>
            if last = quote then some ((name, inside.takeWhile (!ends ·)), rest) else none
        else none
    | _ => none

def readTagEnd? (text : List Char) : Option ((List TagAttribute × Bool) × List Char) :=
  match skipSpaces text with
  | [] => none
  | '>' :: rest => some (([], false), rest)
  | '/' :: '>' :: rest => some (([], true), rest)
  | inside =>
    if inside.length < text.length then
      match readAttribute? inside with
      | none => none
      | some ((name, written), rest) =>
        if rest.length < text.length then
          (valueOf? written).bind fun value =>
            (readTagEnd? rest).map fun ((attributes, closes), behind) =>
              (((name, value) :: attributes, closes), behind)
        else none
    else none
termination_by text.length

namespace Event

def readTag? (text : List Char) : Option (List Event × List Char) :=
  (QualifiedName.read? text).bind fun (name, behind) =>
    (readTagEnd? behind).map fun ((attributes, closes), rest) =>
      (.opening name attributes :: if closes then [.closing name] else [], rest)

def readClosingTag? (text : List Char) : Option (List Event × List Char) :=
  (QualifiedName.read? text).bind fun (name, behind) =>
    match skipSpaces behind with
    | '>' :: rest => some ([.closing name], rest)
    | _ => none

def skipComment? (text : List Char) : Option (List Event × List Char) :=
  (splitAtMark? "-->".toList text).bind fun (content, rest) =>
    if hasMark "--".toList content || content.getLast? == some '-' then none else some ([], rest)

def skipInstruction? (text : List Char) : Option (List Event × List Char) :=
  if "xml ".toList.isPrefixOf text then none
  else
    (afterName? text).bind fun behind =>
      (splitAtMark? "?>".toList (skipSpaces behind)).map fun (_, rest) => ([], rest)

def readSection? (text : List Char) : Option (List Event × List Char) :=
  (splitAtMark? "]]>".toList text).map fun (content, rest) => ([.text (plainText content)], rest)

def ofText? (text : List Char) : Option Event :=
  if text.all isSpace then some (.spaces (plainText text))
  else if hasMark "]]>".toList text then none
  else (textOf? text).map .text

def read? (text : List Char) : Option (List Event × List Char) :=
  match text with
  | '<' :: '?' :: rest => skipInstruction? rest
  | '<' :: '/' :: rest => readClosingTag? rest
  | '<' :: '!' :: '-' :: '-' :: rest => skipComment? rest
  | '<' :: '!' :: rest => ("[CDATA[".toList.isPrefixOf? rest).bind readSection?
  | '<' :: rest => readTag? rest
  | _ =>
    (ofText? (text.takeWhile (· != '<'))).map fun event => ([event], text.dropWhile (· != '<'))

def ofChars? (text : List Char) : Option (List Event) :=
  match text with
  | [] => some []
  | c :: tail =>
    match read? (c :: tail) with
    | none => none
    | some (events, rest) =>
      if rest.length < (c :: tail).length then (ofChars? rest).map (events ++ ·) else none
termination_by text.length
decreasing_by assumption

def skipPause? (text : List Char) : Option (List Char) :=
  if text.head?.any isSpace || "?>".toList.isPrefixOf text then some (skipSpaces text) else none

def skipDeclared? (word : String) (text : List Char) : Option (List Char) :=
  if word.toList.isPrefixOf text then (readAttribute? text).map (·.2) else none

def skipDeclaration? (text : List Char) : Option (List Char) := do
  let version ← skipDeclared? "version" (skipSpaces text)
  let encoding ← skipPause? version
  let standalone ←
    if "encoding".toList.isPrefixOf encoding then
      (skipDeclared? "encoding" encoding).bind skipPause?
    else some encoding
  let ending ←
    if "standalone".toList.isPrefixOf standalone then skipDeclared? "standalone" standalone
    else some standalone
  "?>".toList.isPrefixOf? (skipSpaces ending)

def ofDocument? (text : List Char) : Option (List Event) :=
  if text.all isAllowed then
    let body := if text.head? = some '\uFEFF' then text.tail else text
    match "<?xml ".toList.isPrefixOf? body with
    | some declaration => (skipDeclaration? declaration).bind ofChars?
    | none => ofChars? body
  else none

end Event

end RecordQuery.Markup
