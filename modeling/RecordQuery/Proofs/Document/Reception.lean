import RecordQuery.Proofs.Document.Names
import RecordQuery.Proofs.Document.Transcripts

namespace RecordQuery

open Markup (Element isAllowed normalAttribute normalText normalValue)
open Markup.Element

def Column.received (column : Column) : Column :=
  { column with name := normalValue column.name, alias? := column.alias?.map normalValue }

def ColumnSet.received : ColumnSet → ColumnSet
  | .all => .all
  | .none | .columns [] => .none
  | .columns (column :: rest) => .columns ((column :: rest).map Column.received)

def OrderBy.received (order : OrderBy) : OrderBy :=
  { order with column := normalValue order.column, alias? := order.alias?.map normalValue }

def Condition.received (condition : Condition) : Condition where
  column := normalValue condition.column
  alias? := condition.alias?.map normalValue
  operator := condition.operator.transcript
  values :=
    if condition.other?.isSome then []
    else (Value.operandTextsAll condition.values).map fun text =>
      .text (normalText (condition.operator.written.2 text))
  other? := condition.other?.map normalValue
  outer := false

def Filter.received (filter : Filter) : Filter :=
  filter.mapConditions Condition.received

namespace Link

mutual

def received : Link → Link
  | ⟨source, entity, target, kind, alias?, columns, filter, orders, links⟩ =>
    ⟨normalValue source, normalValue entity, normalValue target, kind, alias?.map normalValue,
      columns.received, filter.received, orders.map OrderBy.received, receivedAll links⟩

def receivedAll : List Link → List Link
  | [] => []
  | link :: rest => link.received :: receivedAll rest

end

mutual

theorem within_received : (link : Link) → link.received.within = link.within.map received
  | ⟨source, entity, target, kind, alias?, columns, filter, orders, links⟩ => by
    rw [within, List.map_cons, ← withinAll_receivedAll links, received, within]

theorem withinAll_receivedAll : (links : List Link) →
    withinAll (receivedAll links) = (withinAll links).map received
  | [] => rfl
  | link :: rest => by
    rw [receivedAll, withinAll, withinAll, List.map_append, within_received link,
      withinAll_receivedAll rest]

end

end Link

def Query.received (query : Query) : Query :=
  { query with
    entity := normalValue query.entity
    columns := query.columns.received
    criteria := query.criteria.received
    orders := query.orders.map OrderBy.received
    links := Link.receivedAll query.links }

section Attributes

theorem normalized_given (name : String) (value? : Option String) :
    (given name value?).map normalAttribute = given name (value?.map normalValue) := by
  cases value? <;> rfl

theorem normalized_flagged (name : String) (flag : Bool) :
    (flagged name flag).map normalAttribute = flagged name flag := by
  cases flag with
  | false => rfl
  | true =>
    have htrue : normalValue "true" = "true" := Markup.normalValue_of_isAttributeText (by decide)
    rw [flagged, if_pos rfl, List.map_singleton, normalAttribute, htrue]

theorem normalized_keyword {α : Type} {keyword : α → String}
    (h : ∀ meaning, Markup.isAttributeText (keyword meaning) = true) (name : String)
    (meaning? : Option α) : (given name (meaning?.map keyword)).map normalAttribute =
      given name (meaning?.map keyword) := by
  rw [normalized_given, Option.map_map]
  congr 2
  funext meaning
  exact Markup.normalValue_of_isAttributeText (h meaning)

end Attributes

theorem Markup.Element.normalizedAll_eq_map (elements : List Element) :
    normalizedAll elements = elements.map normalized := by
  induction elements with
  | nil => rfl
  | cons element rest ih => rw [normalizedAll, ih, List.map_cons]

theorem Tag.normalized_element (tag : Tag) (attributes : List (String × String))
    (children : List Element) : (tag.element attributes children).normalized =
      tag.element (attributes.map normalAttribute) (children.map normalized) := by
  rw [Tag.element, normalized, normalizedAll_eq_map]
  rfl

theorem Column.normalized_element (column : Column) :
    column.element.normalized = column.received.element := by
  rw [element, Tag.normalized_element, element]
  simp only [List.map_cons, List.map_append, normalized_given, normalized_flagged,
    normalized_keyword AggregateFunction.isAttributeText_keyword,
    normalized_keyword DateGrouping.isAttributeText_keyword]
  rfl

theorem ColumnSet.normalized_elements (columns : ColumnSet) :
    columns.elements.map normalized = columns.received.elements := by
  cases columns with
  | all => rw [elements, List.map_singleton, Tag.normalized_element]; rfl
  | none => rfl
  | columns listed =>
    cases listed with
    | nil => rfl
    | cons column rest =>
      rw [elements, List.map_map, received, elements, List.map_map]
      exact List.map_congr_left fun column _ => column.normalized_element

theorem OrderBy.normalized_element (order : OrderBy) :
    order.element.normalized = order.received.element := by
  rw [element, Tag.normalized_element, element]
  simp only [List.map_cons, List.map_append, normalized_given, normalized_flagged]
  rfl

theorem Operator.isAttributeText_written (operator : Operator) :
    Markup.isAttributeText operator.written.1 = true := by
  obtain ⟨keyword, hkeyword⟩ := Option.isSome_iff_exists.mp operator.isSome_keyword?_transcript
  have hwritten := operator.written_transcript
  rw [written_of_keyword? hkeyword] at hwritten
  rw [← congrArg Prod.fst hwritten]
  exact isAttributeText_keyword hkeyword

theorem Condition.normalized_element (condition : Condition) :
    condition.element.normalized = condition.received.element := by
  have hword : condition.received.operator.written = (condition.operator.written.1, id) :=
    condition.operator.written_transcript
  have hchildren : (if condition.other?.isSome then [] else condition.operandElements).map
      normalized = if condition.received.other?.isSome then []
        else condition.received.operandElements := by
    have hother : condition.received.other?.isSome = condition.other?.isSome := Option.isSome_map
    rw [hother]
    by_cases hsome : condition.other?.isSome = true
    · rw [if_pos hsome, if_pos hsome, List.map_nil]
    · have htexts : Value.operandTextsAll condition.received.values =
          (Value.operandTextsAll condition.values).map fun text =>
            normalText (condition.operator.written.2 text) := by
        rw [← Value.operandTextsAll_map_text (List.map _ _), List.map_map, received, if_neg hsome]
        rfl
      rw [if_neg hsome, if_neg hsome]
      unfold operandElements
      rw [hword, htexts, List.map_map, List.map_map]
      rfl
  have hoperator : normalValue condition.operator.written.1 = condition.operator.written.1 :=
    Markup.normalValue_of_isAttributeText condition.operator.isAttributeText_written
  rw [element, Tag.normalized_element, hchildren, element, hword]
  simp only [List.map_append, normalized_given, List.map_cons, List.map_nil, normalAttribute,
    hoperator]
  rfl

mutual

theorem Filter.normalized_element : (filter : Filter) →
    filter.element.normalized = filter.received.element
  | ⟨connective, conditions, filters⟩ => by
    have hkeyword : normalAttribute ("type", connective.keyword) = ("type", connective.keyword) :=
      Markup.normalAttribute_eq_self connective.isAttributeText_keyword
    have hconditions : (conditions.map Condition.element).map normalized =
        (conditions.map Condition.received).map Condition.element := by
      rw [List.map_map, List.map_map]
      exact List.map_congr_left fun condition _ => condition.normalized_element
    rw [element, Tag.normalized_element, List.map_append, hconditions,
      Filter.normalized_elementAll filters, List.map_singleton, hkeyword, received, mapConditions,
      element]

theorem Filter.normalized_elementAll : (filters : List Filter) →
    (elementAll filters).map normalized =
      elementAll (mapConditionsAll Condition.received filters)
  | [] => rfl
  | filter :: rest => by
    rw [elementAll, List.map_cons, Filter.normalized_element filter,
      Filter.normalized_elementAll rest, mapConditionsAll, elementAll, received]

end

theorem Filter.elements_received (filter : Filter) :
    filter.elements.map normalized = filter.received.elements :=
  (elements_mapConditions filter.normalized_element.symm).symm

theorem normalized_bodyElements (columns : ColumnSet) (orders : List OrderBy) (filter : Filter) :
    (bodyElements columns orders filter).map normalized =
      bodyElements columns.received (orders.map OrderBy.received) filter.received := by
  have horders : (orders.map OrderBy.element).map normalized =
      (orders.map OrderBy.received).map OrderBy.element := by
    rw [List.map_map, List.map_map]
    exact List.map_congr_left fun order _ => order.normalized_element
  rw [bodyElements, List.map_append, List.map_append, columns.normalized_elements, horders,
    filter.elements_received, bodyElements]

theorem JoinKind.normalized_attributes (kind : JoinKind) :
    kind.attributes.map normalAttribute = kind.attributes := by
  unfold attributes
  split
  · rfl
  · have hkeyword : normalAttribute ("link-type", kind.keyword) = ("link-type", kind.keyword) :=
      Markup.normalAttribute_eq_self kind.isAttributeText_keyword
    rw [List.map_singleton, hkeyword]

mutual

theorem Link.normalized_element : (link : Link) →
    link.element.normalized = link.received.element
  | ⟨source, entity, target, kind, alias?, columns, filter, orders, links⟩ => by
    rw [element, Tag.normalized_element, List.map_append, List.map_append, List.map_append,
      normalized_given, kind.normalized_attributes, normalized_bodyElements,
      Link.normalized_elementAll links, received, element]
    rfl

theorem Link.normalized_elementAll : (links : List Link) →
    (elementAll links).map normalized = elementAll (receivedAll links)
  | [] => rfl
  | link :: rest => by
    rw [elementAll, List.map_cons, Link.normalized_element link, Link.normalized_elementAll rest,
      receivedAll, elementAll]

end

theorem Query.normalized_element (query : Query) :
    query.element.normalized = query.received.element := by
  have hcontents : (bodyElements query.columns query.orders query.criteria ++
      Link.elementAll query.links).map normalized =
      bodyElements query.received.columns query.received.orders query.received.criteria ++
        Link.elementAll query.received.links := by
    rw [List.map_append, normalized_bodyElements, Link.normalized_elementAll]
    rfl
  rw [element, Tag.normalized_element, List.map_singleton, Tag.normalized_element, hcontents]
  simp only [List.map_append, normalized_flagged, normalized_keyword isAttributeText_natText]
  rfl

theorem ColumnSet.received_ne_nil (columns : ColumnSet) : columns.received ≠ .columns [] := by
  cases columns with
  | columns listed => cases listed <;> simp [received]
  | _ => simp [received]

theorem Condition.legible_received (condition : Condition) : condition.received.Legible where
  spelled := condition.operator.isSome_keyword?_transcript
  operands value hvalue := by
    unfold received at hvalue
    split at hvalue
    · contradiction
    · obtain ⟨text, -, rfl⟩ := List.mem_map.mp hvalue
      exact ⟨_, rfl⟩
  alone hother := if_pos (Option.isSome_map.symm.trans hother)
  inner := rfl

theorem Filter.legible_received (filter : Filter) :
    ∀ condition ∈ filter.received.conditionsWithin, condition.Legible := by
  intro condition hcondition
  rw [received, conditionsWithin_mapConditions] at hcondition
  obtain ⟨written, -, rfl⟩ := List.mem_map.mp hcondition
  exact written.legible_received

theorem Link.legible_received (link : Link) : link.received.Legible := by
  obtain ⟨source, entity, target, kind, alias?, columns, filter, orders, links⟩ := link
  exact ⟨columns.received_ne_nil, filter.legible_received⟩

structure Query.IsBounded (query : Query) : Prop where
  top : ∀ n ∈ query.top?, n < limit64
  count : ∀ n ∈ query.paging.count?, n < limit64
  page : ∀ n ∈ query.paging.page?, n < limit64

theorem Query.IsBounded.legible_received {query : Query} (h : query.IsBounded) :
    query.received.Legible where
  nonempty := query.columns.received_ne_nil
  conditions := query.criteria.legible_received
  links link hlink := by
    have hwithin : link ∈ Link.withinAll (Link.receivedAll query.links) := hlink
    rw [Link.withinAll_receivedAll] at hwithin
    obtain ⟨written, -, rfl⟩ := List.mem_map.mp hwithin
    exact written.legible_received
  top := h.top
  count := h.count
  page := h.page

theorem Query.ofDocument_eq {query : Query} (hallowed : query.document.toList.all isAllowed = true)
    (h : query.IsBounded) : Query.ofDocument query.document =
      (Aliases.empty.assign query.received.unordered.links).2.map fun links =>
        { query.received.unordered with links := links } := by
  have hread : Markup.Element.read query.document = .ok query.received.element.settled := by
    unfold document at hallowed ⊢
    rw [Element.read, read?_write_normalized query.named_element hallowed, query.normalized_element]
  rw [Query.ofDocument, hread, ok_bind, checkDocument_element h.legible_received, ok_bind,
    query_element_eq h.legible_received]

theorem Query.ofDocument_of_not_allowed {query : Query}
    (h : query.document.toList.all isAllowed = false) :
    Query.ofDocument query.document = .error .malformed := by
  rw [Query.ofDocument, Element.read, read?_eq_none h]
  rfl

end RecordQuery
