import RecordQuery.Document.Tag

/-!
The grammar of query documents. Each element is checked before the elements inside of it, which are
checked in order.
-/

namespace RecordQuery

open Markup (Element)

namespace Tag

def checkContents (tag : Tag) : List Element → Except Error Unit
  | [] => .ok ()
  | child :: rest =>
    match ofName? child.name with
    | none => .error (.invalid (.unknownElement child.name))
    | some inner =>
      if tag.contents.contains inner then tag.checkContents rest
      else .error (.invalid (.misplacedElement child.name tag.name))

def checkCount : List Element → Except Error Unit
  | [] => .error (.invalid .noEntity)
  | [_] => .ok ()
  | _ => .error (.invalid .severalEntities)

def checkAttributes (tag : Tag) (element : Element) : Except Error Unit :=
  match tag with
  | .fetch => checkCount element.children
  | .entity => do
    let _ ← element.required "name"
  | .column => do
    let _ ← element.required "name"
    let _ ← element.aggregate?
    let _ ← element.dateGrouping?
  | .link => do
    let _ ← element.required "name"
    let _ ← element.required "from"
    let _ ← element.required "to"
    let _ ← element.joinKind?
  | .filter => do
    let _ ← element.connective?
  | .condition => do
    let _ ← element.required "attribute"
    let _ ← element.operator
  | .allColumns | .noColumns | .order | .value => .ok ()

def check (tag : Tag) (element : Element) : Except Error Unit :=
  match tag with
  | .entity | .link => do
    tag.checkAttributes element
    tag.checkContents element.children
  | _ => do
    tag.checkContents element.children
    tag.checkAttributes element

mutual

def checkElement (tag : Tag) : Element → Except Error Unit
  | ⟨name, attributes, children, text?⟩ => do
    tag.check ⟨name, attributes, children, text?⟩
    checkElements children

def checkElements : List Element → Except Error Unit
  | [] => .ok ()
  | ⟨name, attributes, children, text?⟩ :: rest =>
    match ofName? name with
    | none => .error (.invalid (.unknownElement name))
    | some tag => do
      checkElement tag ⟨name, attributes, children, text?⟩
      checkElements rest

end

end Tag

def Markup.Element.checkDocument (element : Element) : Except Error Unit :=
  if element.name = Tag.fetch.name then Tag.fetch.checkElement element
  else .error (.invalid (.rootElement element.name))

end RecordQuery
