import RecordQuery.Alias
import RecordQuery.Document.Grammar
import RecordQuery.Markup.Reader
import RecordQuery.Query.Description
import RecordQuery.Text.Blank

namespace RecordQuery

namespace Markup.Element

def flag (element : Element) (name : String) : Except Error Bool :=
  match element.attribute? name with
  | none => .ok false
  | some word =>
    let lowered := Text.lowercaseASCII (Text.trim word)
    if lowered = "true" ∨ lowered = "1" then .ok true
    else if lowered = "false" ∨ lowered = "0" then .ok false
    else .error (.invalid (.notAFlag element.name name word))

def count? (element : Element) (name : String) : Except Error (Option Nat) :=
  match element.attribute? name with
  | none => .ok none
  | some numeral =>
    match Text.readUnsigned? (Text.trim numeral).toList with
    | some n =>
      if n < limit64 then .ok (some n) else .error (.invalid (.notACount element.name name numeral))
    | none => .error (.invalid (.notACount element.name name numeral))

def column (element : Element) : Except Error Column := do
  let name ← element.required "name"
  let groupBy ← element.flag "groupby"
  let distinct ← element.flag "distinct"
  let aggregate? ← element.aggregate?
  let dateGrouping? ← element.dateGrouping?
  return ⟨name, element.attribute? "alias", aggregate?, groupBy, dateGrouping?, distinct⟩

def columns (element : Element) : Except Error ColumnSet :=
  if element.has .allColumns then .ok .all
  else do
    match ← (element.tagged .column).mapM column with
    | [] => pure .none
    | listed => pure (.columns listed)

def order (element : Element) : Except Error OrderBy := do
  let name ← element.required "attribute"
  return ⟨name, element.attribute? "entityname", ← element.flag "descending"⟩

def orders (element : Element) (aggregate : Bool) : Except Error (List OrderBy) :=
  if aggregate then .ok [] else (element.tagged .order).mapM order

def condition (element : Element) : Except Error Condition := do
  let operator ← element.operator
  let first := (element.attribute? "value").toList
  let others := (element.tagged .value).map fun value => value.text?.getD ""
  let name ← element.required "attribute"
  return ⟨name, element.attribute? "entityname", operator, (first ++ others).map .text,
    element.attribute? "valueof", false⟩

mutual

def filter : Element → Except Error Filter
  | ⟨name, attributes, children, text?⟩ => do
    let connective? ← connective? ⟨name, attributes, children, text?⟩
    let (conditions, filters) ← filterParts children
    return ⟨connective?.getD .and, conditions, filters⟩

def filterParts : List Element → Except Error (List Condition × List Filter)
  | [] => .ok ([], [])
  | ⟨name, attributes, children, text?⟩ :: rest =>
    if name = Tag.condition.name then do
      let condition ← condition ⟨name, attributes, children, text?⟩
      let (conditions, filters) ← filterParts rest
      return (condition :: conditions, filters)
    else if name = Tag.filter.name then do
      let filter ← filter ⟨name, attributes, children, text?⟩
      let (conditions, filters) ← filterParts rest
      return (conditions, filter :: filters)
    else filterParts rest

end

def criteria (element : Element) : Except Error Filter := do
  match ← (element.tagged .filter).mapM filter with
  | [] => pure .all
  | [filter] => pure filter
  | filters => pure ⟨.and, [], filters⟩

mutual

def link (aggregate : Bool) : Element → Except Error Link
  | ⟨name, attributes, children, text?⟩ => do
    let element : Element := ⟨name, attributes, children, text?⟩
    let source ← element.required "to"
    let entity ← element.required "name"
    let target ← element.required "from"
    let kind? ← element.joinKind?
    let columns ← element.columns
    let filter ← element.criteria
    let orders ← element.orders aggregate
    let links ← linksAmong aggregate children
    return ⟨source, entity, target, kind?.getD .inner, element.attribute? "alias", columns, filter,
      orders, links⟩

def linksAmong (aggregate : Bool) : List Element → Except Error (List Link)
  | [] => .ok []
  | ⟨name, attributes, children, text?⟩ :: rest =>
    if name = Tag.link.name then do
      let link ← link aggregate ⟨name, attributes, children, text?⟩
      let links ← linksAmong aggregate rest
      return link :: links
    else linksAmong aggregate rest

end

def query (element : Element) : Except Error Query :=
  match element.tagged .entity with
  | [] => .error (.invalid .noEntity)
  | entity :: _ => do
    let aggregate ← element.flag "aggregate"
    let name ← entity.required "name"
    let distinct ← element.flag "distinct"
    let top? ← element.count? "top"
    let count? ← element.count? "count"
    let page? ← element.count? "page"
    let totalCount ← element.flag "returntotalrecordcount"
    let columns ← entity.columns
    let criteria ← entity.criteria
    let orders ← entity.orders aggregate
    let links ← linksAmong aggregate entity.children
    let named ← (Aliases.empty.assign links).2
    return ⟨name, columns, criteria, orders, ⟨count?, page?, totalCount⟩, distinct, top?, named,
      aggregate⟩

end Markup.Element

def Markup.Element.read (text : String) : Except Error Element :=
  match read? text with
  | some element => .ok element
  | none => .error .malformed

def Query.ofDocument (text : String) : Except Error Query := do
  let element ← Markup.Element.read text
  element.checkDocument
  element.query

end RecordQuery
