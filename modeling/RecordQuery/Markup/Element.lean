namespace RecordQuery.Markup

structure Element where
  name : String
  attributes : List (String × String)
  children : List Element
  text? : Option String

namespace Element

instance : Inhabited Element := ⟨⟨"", [], [], none⟩⟩

def attribute? (element : Element) (name : String) : Option String :=
  element.attributes.lookup name

end Element

end RecordQuery.Markup
