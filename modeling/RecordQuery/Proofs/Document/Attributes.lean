import RecordQuery.Document.Reader
import RecordQuery.Proofs.Document.Keywords
import RecordQuery.Proofs.Outcome

namespace RecordQuery

open Markup (Element)

@[simp] theorem lookup_given (name key : String) (value? : Option String) :
    (given name value?).lookup key = if key = name then value? else none := by
  cases value? with
  | none => simp [given]
  | some value =>
    by_cases h : key = name
    · simp [given, h]
    · simp [given, List.lookup_cons, h, beq_false_of_ne h]

@[simp] theorem lookup_flagged (name key : String) (flag : Bool) :
    (flagged name flag).lookup key = if key = name ∧ flag = true then some "true" else none := by
  cases flag with
  | false => simp [flagged]
  | true =>
    by_cases h : key = name
    · simp [flagged, h]
    · simp [flagged, List.lookup_cons, h, beq_false_of_ne h]

namespace Markup.Element

variable {element : Element} {name : String}

theorem required_eq_ok {value : String} (h : element.attribute? name = some value) :
    element.required name = .ok value := by
  rw [required, h]

theorem flag_eq_ok {flag : Bool}
    (h : element.attribute? name = if flag = true then some "true" else none) :
    element.flag name = .ok flag := by
  rw [Element.flag, h]
  cases flag with
  | false => rfl
  | true =>
    have hword : Text.lowercaseASCII (Text.trim "true") = "true" := by decide
    simp [hword]

theorem count?_eq_ok {n? : Option Nat} (h : element.attribute? name = n?.map Text.natText)
    (hlimit : ∀ n ∈ n?, n < limit64) : element.count? name = .ok n? := by
  rw [count?, h]
  cases n? with
  | none => rfl
  | some n =>
    simp only [Option.map_some]
    rw [Text.trim_natText, Text.toList_natText, Text.readUnsigned?_natChars]
    simp only
    rw [if_pos (hlimit n rfl)]

theorem keyword?_eq_ok {α : Type} {ofKeyword? : String → Option α} {fault : String → Error}
    {keyword : α → String} {meaning? : Option α}
    (h : element.attribute? name = meaning?.map keyword)
    (hkeyword : ∀ meaning, ofKeyword? (keyword meaning) = some meaning) :
    element.keyword? name ofKeyword? fault = .ok meaning? := by
  rw [keyword?, h]
  cases meaning? with
  | none => rfl
  | some meaning => simp only [Option.map_some, hkeyword]

end Markup.Element

namespace Markup.Element

@[simp] theorem attribute?_element (tag : Tag) (attributes : List (String × String))
    (children : List Element) (name : String) :
    (tag.element attributes children).attribute? name = attributes.lookup name := rfl

theorem column_element (column : Column) : column.element.column = .ok column := by
  have hname : column.element.required "name" = .ok column.name := rfl
  have halias : column.element.attribute? "alias" = column.alias? := by
    simp [Column.element, List.lookup_append, List.lookup_cons]
  have haggregate : column.element.aggregate? = .ok column.aggregate? := by
    apply keyword?_eq_ok _ AggregateFunction.ofKeyword?_keyword
    simp [Column.element, List.lookup_append, List.lookup_cons]
  have hgroupBy : column.element.flag "groupby" = .ok column.groupBy := by
    apply flag_eq_ok
    simp [Column.element, List.lookup_append, List.lookup_cons]
  have hgrouping : column.element.dateGrouping? = .ok column.dateGrouping? := by
    apply keyword?_eq_ok _ DateGrouping.ofKeyword?_keyword
    simp [Column.element, List.lookup_append, List.lookup_cons]
  have hdistinct : column.element.flag "distinct" = .ok column.distinct := by
    apply flag_eq_ok
    simp [Column.element, List.lookup_append, List.lookup_cons]
  simp only [Element.column, hname, halias, haggregate, hgroupBy, hgrouping, hdistinct, ok_bind,
    pure_eq_ok]

theorem order_element (order : OrderBy) : order.element.order = .ok order := by
  have hname : order.element.required "attribute" = .ok order.column := rfl
  have halias : order.element.attribute? "entityname" = order.alias? := by
    simp [OrderBy.element, List.lookup_append, List.lookup_cons]
  have hdescending : order.element.flag "descending" = .ok order.descending := by
    apply flag_eq_ok
    simp [OrderBy.element, List.lookup_append, List.lookup_cons]
  simp only [Element.order, hname, halias, hdescending, ok_bind, pure_eq_ok]

end Markup.Element

end RecordQuery
