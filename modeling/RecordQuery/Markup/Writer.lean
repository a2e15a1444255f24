import RecordQuery.Markup.Element

namespace RecordQuery.Markup

def escapeChar : Char → List Char
  | '&' => "&amp;".toList
  | '<' => "&lt;".toList
  | '>' => "&gt;".toList
  | '"' => "&quot;".toList
  | '\'' => "&apos;".toList
  | c => [c]

def escape (text : String) : List Char :=
  text.toList.flatMap escapeChar

def writeAttribute : String × String → List Char
  | (name, value) => ' ' :: name.toList ++ "=\"".toList ++ escape value ++ ['"']

namespace Element

mutual

def chars (isShort : String → Bool) : Element → List Char
  | ⟨name, attributes, children, text?⟩ =>
    let content := charsAll isShort children ++ escape (text?.getD "")
    '<' :: name.toList ++ attributes.flatMap writeAttribute ++
      if isShort name && content.isEmpty then "/>".toList
      else '>' :: content ++ "</".toList ++ name.toList ++ ['>']

def charsAll (isShort : String → Bool) : List Element → List Char
  | [] => []
  | element :: rest => element.chars isShort ++ charsAll isShort rest

end

def write (isShort : String → Bool) (element : Element) : String :=
  String.ofList (element.chars isShort)

end Element

end RecordQuery.Markup
