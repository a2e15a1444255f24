import RecordQuery.Markup.Event

namespace RecordQuery.Markup

def standardSpace (path : String) : String :=
  String.intercalate "/" ["http:", "", "www.w3.org", path]

def xmlSpace : String := standardSpace "XML/1998/namespace"

def declarationSpace : String := standardSpace "2000/xmlns/"

abbrev Bindings := List (String × String)

namespace TagAttribute

def isBinding (a : TagAttribute) : Bool :=
  a.1.space == "xmlns"

def isDefaultBinding (a : TagAttribute) : Bool :=
  !isBinding a && a.1.name == "xmlns"

def isProperBinding : TagAttribute → Bool
  | (name, value) =>
    value != declarationSpace &&
      (name.space == "xmlns" && name.name == "xml") == (value == xmlSpace)

def space? (bindings : Bindings) (a : TagAttribute) : Option (Option String) :=
  if a.1.space = "" then some none
  else if a.1.space = "xml" then some (some xmlSpace)
  else (bindings.lookup a.1.space).map some

end TagAttribute

def areDistinct {α : Type} [BEq α] : List α → Bool
  | [] => true
  | a :: rest => !rest.contains a && areDistinct rest

namespace Bindings

def extend? (outer : Bindings) (attributes : List TagAttribute) : Option Bindings :=
  let bound := (attributes.filter fun a => TagAttribute.isBinding a && a.2 != xmlSpace).map
    fun (name, value) => (name.name, value)
  let declared := attributes.filter fun a =>
    TagAttribute.isBinding a || TagAttribute.isDefaultBinding a
  if declared.all TagAttribute.isProperBinding && areDistinct (bound.map (·.1)) then
    some (bound ++ outer)
  else none

def admitsElement (bindings : Bindings) (name : QualifiedName) : Bool :=
  name.space == "" || name.space != "xmlns" && (bindings.lookup name.space).isSome

def attributes? (bindings : Bindings) (attributes : List TagAttribute) :
    Option (List (String × String)) :=
  let left := attributes.filter fun a =>
    !TagAttribute.isBinding a && !TagAttribute.isDefaultBinding a
  (left.mapM (TagAttribute.space? bindings)).bind fun spaces =>
    if areDistinct (spaces.zip (left.map (·.1.name))) then
      some (left.map fun (name, value) => (name.name, value))
    else none

end Bindings

end RecordQuery.Markup
