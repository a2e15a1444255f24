import RecordQuery.Error
import RecordQuery.Markup.Element
import RecordQuery.Query.Link

namespace RecordQuery

inductive Tag where
  | fetch
  | entity
  | column
  | allColumns
  | noColumns
  | order
  | filter
  | condition
  | value
  | link
  deriving DecidableEq, Repr

namespace Tag

def all : List Tag :=
  [fetch, entity, column, allColumns, noColumns, order, filter, condition, value, link]

def name : Tag → String
  | .fetch => "fetch"
  | .entity => "entity"
  | .column => "attribute"
  | .allColumns => "all-attributes"
  | .noColumns => "no-attrs"
  | .order => "order"
  | .filter => "filter"
  | .condition => "condition"
  | .value => "value"
  | .link => "link-entity"

def ofName? (name : String) : Option Tag :=
  all.find? (·.name == name)

def contents : Tag → List Tag
  | .fetch => [entity]
  | .entity | .link => [column, allColumns, noColumns, order, filter, link]
  | .filter => [condition, filter]
  | .condition => [value]
  | _ => []

end Tag

namespace Markup.Element

def tagged (element : Element) (tag : Tag) : List Element :=
  element.children.filter (·.name == tag.name)

def has (element : Element) (tag : Tag) : Bool :=
  !(element.tagged tag).isEmpty

def required (element : Element) (name : String) : Except Error String :=
  match element.attribute? name with
  | some found => .ok found
  | none => .error (.invalid (.missingAttribute element.name name))

def keyword? {α : Type} (element : Element) (name : String) (ofKeyword? : String → Option α)
    (fault : String → Error) : Except Error (Option α) :=
  match element.attribute? name with
  | none => .ok none
  | some word =>
    match ofKeyword? word with
    | some meaning => .ok (some meaning)
    | none => .error (fault word)

def aggregate? (element : Element) : Except Error (Option AggregateFunction) :=
  element.keyword? "aggregate" AggregateFunction.ofKeyword? fun word =>
    .invalid (.unknownAggregate word)

def dateGrouping? (element : Element) : Except Error (Option DateGrouping) :=
  element.keyword? "dategrouping" DateGrouping.ofKeyword? fun word =>
    .invalid (.unknownGrouping word)

def joinKind? (element : Element) : Except Error (Option JoinKind) :=
  element.keyword? "link-type" JoinKind.ofKeyword? fun word => .invalid (.unknownLinkType word)

def connective? (element : Element) : Except Error (Option Connective) :=
  element.keyword? "type" Connective.ofKeyword? fun word => .invalid (.unknownFilterType word)

def operator (element : Element) : Except Error Operator := do
  let word ← element.required "operator"
  match Operator.ofKeyword? word with
  | some operator => pure operator
  | none => .error (.operator (.unknown word))

end Markup.Element

end RecordQuery
