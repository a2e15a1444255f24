import RecordQuery.Alias
import RecordQuery.Proofs.Markup.Tags
import RecordQuery.Proofs.Query.Within
import RecordQuery.Query.Description

namespace RecordQuery

open Markup (isAttributeText isElementText)

structure Condition.Expressible (condition : Condition) : Prop where
  column : isAttributeText condition.column = true
  aliasName : ∀ name ∈ condition.alias?, isAttributeText name = true
  other : ∀ name ∈ condition.other?, isAttributeText name = true
  spelled : condition.operator.keyword?.isSome = true
  operands : ∀ value ∈ condition.values, ∃ text, value = .text text ∧ isElementText text = true
  alone : condition.other?.isSome = true → condition.values = []
  inner : condition.outer = false

structure Column.Expressible (column : Column) : Prop where
  name : isAttributeText column.name = true
  aliasName : ∀ name ∈ column.alias?, isAttributeText name = true

structure ColumnSet.Expressible (columns : ColumnSet) : Prop where
  listed : ∀ column ∈ columns.explicit, column.Expressible
  nonempty : columns ≠ .columns []

structure OrderBy.Expressible (order : OrderBy) : Prop where
  column : isAttributeText order.column = true
  aliasName : ∀ name ∈ order.alias?, isAttributeText name = true

structure Link.Expressible (aggregate : Bool) (link : Link) : Prop where
  source : isAttributeText link.source = true
  entity : isAttributeText link.entity = true
  target : isAttributeText link.target = true
  named : ∃ aliasName, link.alias? = some aliasName ∧ Aliases.isValid aliasName = true
  columns : link.columns.Expressible
  conditions : ∀ condition ∈ link.filter.conditionsWithin, condition.Expressible
  orders : ∀ order ∈ link.orders, order.Expressible
  unordered : aggregate = true → link.orders = []

structure Query.Expressible (query : Query) : Prop where
  entity : isAttributeText query.entity = true
  columns : query.columns.Expressible
  conditions : ∀ condition ∈ query.criteria.conditionsWithin, condition.Expressible
  orders : ∀ order ∈ query.orders, order.Expressible
  unordered : query.aggregate = true → query.orders = []
  links : ∀ link ∈ Link.withinAll query.links, link.Expressible query.aggregate
  aliases : (Link.explicitAliasesAll query.links).Nodup
  top : ∀ n ∈ query.top?, n < limit64
  count : ∀ n ∈ query.paging.count?, n < limit64
  page : ∀ n ∈ query.paging.page?, n < limit64

structure Condition.Legible (condition : Condition) : Prop where
  spelled : condition.operator.keyword?.isSome = true
  operands : ∀ value ∈ condition.values, ∃ text, value = .text text
  alone : condition.other?.isSome = true → condition.values = []
  inner : condition.outer = false

structure Link.Legible (link : Link) : Prop where
  nonempty : link.columns ≠ .columns []
  conditions : ∀ condition ∈ link.filter.conditionsWithin, condition.Legible

/-- What the reader finds in the element of a query is the query, whatever characters are in its
names and texts, and whatever aliases its links have. -/
structure Query.Legible (query : Query) : Prop where
  nonempty : query.columns ≠ .columns []
  conditions : ∀ condition ∈ query.criteria.conditionsWithin, condition.Legible
  links : ∀ link ∈ Link.withinAll query.links, link.Legible
  top : ∀ n ∈ query.top?, n < limit64
  count : ∀ n ∈ query.paging.count?, n < limit64
  page : ∀ n ∈ query.paging.page?, n < limit64

theorem Condition.Expressible.legible {condition : Condition} (h : condition.Expressible) :
    condition.Legible where
  spelled := h.spelled
  operands value hvalue := by
    obtain ⟨text, htext, -⟩ := h.operands value hvalue
    exact ⟨text, htext⟩
  alone := h.alone
  inner := h.inner

theorem Link.Expressible.legible {aggregate : Bool} {link : Link} (h : link.Expressible aggregate) :
    link.Legible where
  nonempty := h.columns.nonempty
  conditions condition hcondition := (h.conditions condition hcondition).legible

def Query.ordinary (query : Query) : Query := { query with aggregate := false }

theorem Link.Expressible.ordinary {aggregate : Bool} {link : Link}
    (h : link.Expressible aggregate) : link.Expressible false where
  source := h.source
  entity := h.entity
  target := h.target
  named := h.named
  columns := h.columns
  conditions := h.conditions
  orders := h.orders
  unordered := nofun

theorem Query.Expressible.ordinary {query : Query} (h : query.Expressible) :
    query.ordinary.Expressible where
  entity := h.entity
  columns := h.columns
  conditions := h.conditions
  orders := h.orders
  unordered := nofun
  links link hlink := (h.links link hlink).ordinary
  aliases := h.aliases
  top := h.top
  count := h.count
  page := h.page

theorem Query.legible_of_ordinary {query : Query} (h : query.ordinary.Expressible) :
    query.Legible where
  nonempty := h.columns.nonempty
  conditions condition hcondition := (h.conditions condition hcondition).legible
  links link hlink := (h.links link hlink).legible
  top := h.top
  count := h.count
  page := h.page

end RecordQuery
