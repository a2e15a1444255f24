import RecordQuery.Markup.Binding
import RecordQuery.Markup.Element

namespace RecordQuery.Markup

structure OpenElement where
  name : QualifiedName
  attributes : List (String × String)
  bindings : Bindings
  children : List Element
  text? : Option String

namespace OpenElement

def addText (element : OpenElement) (content : String) : OpenElement :=
  { element with text? := some (element.text?.getD "" ++ content) }

def addChild (element : OpenElement) (child : Element) : OpenElement :=
  { element with children := child :: element.children }

def close (element : OpenElement) : Element :=
  ⟨element.name.name, element.attributes, element.children.reverse,
    if element.children.isEmpty then element.text? else none⟩

end OpenElement

structure Reading where
  elements : List OpenElement
  root? : Option Element

namespace Reading

def start : Reading := ⟨[], none⟩

def bindings (reading : Reading) : Bindings :=
  match reading.elements with
  | [] => []
  | innermost :: _ => innermost.bindings

def opening? (reading : Reading) (name : QualifiedName) (attributes : List TagAttribute) :
    Option Reading :=
  if reading.elements.isEmpty && reading.root?.isSome then none
  else
    (reading.bindings.extend? attributes).bind fun bindings =>
      if bindings.admitsElement name then
        (bindings.attributes? attributes).map fun kept =>
          { reading with elements := ⟨name, kept, bindings, [], none⟩ :: reading.elements }
      else none

def closing? (reading : Reading) (name : QualifiedName) : Option Reading :=
  match reading.elements with
  | [] => none
  | innermost :: outer =>
    if innermost.name = name then
      match outer with
      | [] => some ⟨[], some innermost.close⟩
      | parent :: others => some ⟨parent.addChild innermost.close :: others, reading.root?⟩
    else none

def text? (reading : Reading) (content : String) : Option Reading :=
  match reading.elements with
  | [] => none
  | innermost :: outer => some { reading with elements := innermost.addText content :: outer }

def next? (reading : Reading) : Event → Option Reading
  | .opening name attributes => reading.opening? name attributes
  | .closing name => reading.closing? name
  | .text content => reading.text? content
  | .spaces content => if reading.elements.isEmpty then some reading else reading.text? content

end Reading

namespace Element

def ofEvents? (events : List Event) : Option Element :=
  (events.foldlM Reading.next? Reading.start).bind fun reading =>
    if reading.elements.isEmpty then reading.root? else none

def read? (text : String) : Option Element :=
  (Event.ofDocument? text.toList).bind ofEvents?

end Element

end RecordQuery.Markup
