import RecordQuery.Document.Tag
import RecordQuery.Markup.Writer
import RecordQuery.Query.Description

namespace RecordQuery

open Markup (Element)

def Tag.element (tag : Tag) (attributes : List (String × String)) (children : List Element) :
    Element :=
  ⟨tag.name, attributes, children, none⟩

def Tag.isShort : Tag → Bool
  | .column | .allColumns | .order | .condition => true
  | _ => false

def flagged (name : String) (flag : Bool) : List (String × String) :=
  if flag then [(name, "true")] else []

def given (name : String) (value? : Option String) : List (String × String) :=
  (value?.map fun value => (name, value)).toList

mutual

def Value.operandTexts : Value → List String
  | .null => []
  | .reference target => [target.id.text]
  | .options set => set.codes.map fun code => Text.intText code.toInt
  | .aliased _ _ value => value.operandTexts
  | .list items => Value.operandTextsAll items
  | value => [value.display]

def Value.operandTextsAll : List Value → List String
  | [] => []
  | value :: rest => value.operandTexts ++ Value.operandTextsAll rest

end

def Column.element (column : Column) : Element :=
  Tag.column.element
    (("name", column.name) :: given "alias" column.alias? ++
      given "aggregate" (column.aggregate?.map (·.keyword)) ++ flagged "groupby" column.groupBy ++
      given "dategrouping" (column.dateGrouping?.map (·.keyword)) ++
      flagged "distinct" column.distinct) []

def ColumnSet.elements : ColumnSet → List Element
  | .all => [Tag.allColumns.element [] []]
  | .none => []
  | .columns listed => listed.map Column.element

def OrderBy.element (order : OrderBy) : Element :=
  Tag.order.element
    (("attribute", order.column) :: given "entityname" order.alias? ++
      flagged "descending" order.descending) []

def Operator.written : Operator → String × (String → String)
  | .text .contains false => ("like", fun text => "%" ++ text ++ "%")
  | .text .contains true => ("not-like", fun text => "%" ++ text ++ "%")
  | operator => (operator.keyword?.getD "eq", id)

namespace Condition

def operandElements (condition : Condition) : List Element :=
  (Value.operandTextsAll condition.values).map fun text =>
    ⟨Tag.value.name, [], [], some (condition.operator.written.2 text)⟩

def element (condition : Condition) : Element :=
  Tag.condition.element
    (given "entityname" condition.alias? ++
      [("attribute", condition.column), ("operator", condition.operator.written.1)] ++
      given "valueof" condition.other?)
    (if condition.other?.isSome then [] else condition.operandElements)

end Condition

namespace Filter

mutual

def element : Filter → Element
  | ⟨connective, conditions, filters⟩ =>
    Tag.filter.element [("type", connective.keyword)]
      (conditions.map Condition.element ++ elementAll filters)

def elementAll : List Filter → List Element
  | [] => []
  | filter :: rest => filter.element :: elementAll rest

end

def elements (filter : Filter) : List Element :=
  match filter with
  | ⟨.and, [], []⟩ => []
  | _ => [filter.element]

end Filter

def JoinKind.attributes (kind : JoinKind) : List (String × String) :=
  if kind = .inner then [] else [("link-type", kind.keyword)]

def bodyElements (columns : ColumnSet) (orders : List OrderBy) (filter : Filter) : List Element :=
  columns.elements ++ orders.map OrderBy.element ++ filter.elements

namespace Link

mutual

def element : Link → Element
  | ⟨source, entity, target, kind, alias?, columns, filter, orders, links⟩ =>
    Tag.link.element
      ([("name", entity), ("from", target), ("to", source)] ++ given "alias" alias? ++
        kind.attributes)
      (bodyElements columns orders filter ++ elementAll links)

def elementAll : List Link → List Element
  | [] => []
  | link :: rest => link.element :: elementAll rest

end

end Link

namespace Query

def element (query : Query) : Element :=
  Tag.fetch.element
    (flagged "aggregate" query.aggregate ++ flagged "distinct" query.distinct ++
      given "top" (query.top?.map Text.natText) ++
      given "count" (query.paging.count?.map Text.natText) ++
      given "page" (query.paging.page?.map Text.natText) ++
      flagged "returntotalrecordcount" query.paging.totalCount)
    [Tag.entity.element [("name", query.entity)]
      (bodyElements query.columns query.orders query.criteria ++ Link.elementAll query.links)]

def document (query : Query) : String :=
  query.element.write fun name => (Tag.ofName? name).any Tag.isShort

end Query

end RecordQuery
