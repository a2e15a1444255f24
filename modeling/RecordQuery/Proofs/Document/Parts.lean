import RecordQuery.Proofs.Document.Attributes
import RecordQuery.Proofs.Document.Expressible
import RecordQuery.Proofs.Markup.Documents

namespace RecordQuery

open Markup (Element)
open Markup.Element

namespace Markup.Element

theorem settledAll_eq_map (elements : List Element) : settledAll elements = elements.map settled := by
  induction elements with
  | nil => rfl
  | cons element rest ih => rw [settledAll, ih, List.map_cons]

@[simp] theorem name_settled (element : Element) : element.settled.name = element.name := by
  cases element
  rfl

@[simp] theorem settled_element (tag : Tag) (attributes : List (String × String))
    (children : List Element) :
    (tag.element attributes children).settled =
      tag.element attributes (children.map settled) := by
  rw [Tag.element, settled, settledAll_eq_map, Tag.element]
  simp

theorem filter_named {elements : List Element} {name : String}
    (h : ∀ element ∈ elements, element.name = name) (sought : String) :
    elements.filter (·.name == sought) = if name = sought then elements else [] := by
  split
  · rename_i heq
    rw [List.filter_eq_self]
    intro element helement
    simpa [heq] using h element helement
  · rename_i hne
    rw [List.filter_eq_nil_iff]
    intro element helement
    simpa [h element helement] using hne

theorem filterParts_cons (element : Element) (rest : List Element) :
    filterParts (element :: rest) =
      if element.name = Tag.condition.name then do
        let condition ← element.condition
        let (conditions, filters) ← filterParts rest
        return (condition :: conditions, filters)
      else if element.name = Tag.filter.name then do
        let filter ← element.filter
        let (conditions, filters) ← filterParts rest
        return (conditions, filter :: filters)
      else filterParts rest := by
  cases element
  rw [filterParts]

theorem filter_eq (element : Element) :
    element.filter = (do
      let connective? ← element.connective?
      let (conditions, filters) ← filterParts element.children
      return ⟨connective?.getD .and, conditions, filters⟩) := by
  cases element
  rw [Element.filter]

end Markup.Element

theorem Condition.Legible.exists_texts {condition : Condition} (h : condition.Legible) :
    ∃ texts : List String, condition.values = texts.map .text := by
  have hvalues := h.operands
  generalize condition.values = values at hvalues
  induction values with
  | nil => exact ⟨[], rfl⟩
  | cons value rest ih =>
    obtain ⟨text, rfl, -⟩ := hvalues value List.mem_cons_self
    obtain ⟨texts, rfl⟩ := ih fun other hother => hvalues other (List.mem_cons_of_mem _ hother)
    exact ⟨text :: texts, rfl⟩

theorem Value.operandTextsAll_map_text (texts : List String) :
    operandTextsAll (texts.map .text) = texts := by
  induction texts with
  | nil => rfl
  | cons text rest ih =>
    rw [List.map_cons, operandTextsAll, ih]
    rfl

def operandElement (text : String) : Element := ⟨Tag.value.name, [], [], some text⟩

theorem Condition.Legible.element_eq {condition : Condition} (h : condition.Legible)
    {keyword : String} (hkeyword : condition.operator.keyword? = some keyword) {texts : List String}
    (htexts : condition.values = texts.map .text) :
    condition.element = Tag.condition.element
      (given "entityname" condition.alias? ++
        [("attribute", condition.column), ("operator", keyword)] ++
        given "valueof" condition.other?)
      (texts.map operandElement) := by
  have hchildren : (if condition.other?.isSome then [] else condition.operandElements) =
      texts.map operandElement := by
    rw [operandElements, htexts, Value.operandTextsAll_map_text,
      Operator.written_of_keyword? hkeyword]
    split
    · rename_i hother
      have hnone := h.alone hother
      rw [htexts, List.map_eq_nil_iff] at hnone
      rw [hnone]
      rfl
    · rfl
  rw [Condition.element, hchildren, Operator.written_of_keyword? hkeyword]

namespace Markup.Element

theorem getD_text_settled (text : String) :
    (operandElement text).settled.text?.getD "" = text := by
  by_cases h : text = ""
  · simp [operandElement, settled, Option.filter, h]
  · simp [operandElement, settled, Option.filter, h]

theorem condition_element {condition : Condition} (h : condition.Legible) :
    condition.element.settled.condition = .ok condition := by
  obtain ⟨keyword, hkeyword⟩ := Option.isSome_iff_exists.mp h.spelled
  obtain ⟨texts, htexts⟩ := h.exists_texts
  rw [h.element_eq hkeyword htexts, settled_element]
  generalize helement : Tag.condition.element _ _ = element
  have hoperator : element.operator = .ok condition.operator := by
    have hword : element.required "operator" = .ok keyword := by
      apply required_eq_ok
      simp [← helement, List.lookup_append, List.lookup_cons]
    rw [Element.operator, hword, ok_bind, Operator.ofKeyword?_keyword hkeyword]
    rfl
  have hname : element.required "attribute" = .ok condition.column := by
    apply required_eq_ok
    simp [← helement, List.lookup_append]
  have hvalue : element.attribute? "value" = none := by
    simp [← helement, List.lookup_append, List.lookup_cons]
  have halias : element.attribute? "entityname" = condition.alias? := by
    simp [← helement, List.lookup_append, List.lookup_cons]
  have hother : element.attribute? "valueof" = condition.other? := by
    simp [← helement, List.lookup_append, List.lookup_cons]
  have hoperands : (element.tagged .value).map (fun value => value.text?.getD "") = texts := by
    have hnames : ∀ child ∈ (texts.map operandElement).map settled,
        child.name = Tag.value.name := by
      intro child hchild
      simp only [List.map_map, List.mem_map, Function.comp_apply] at hchild
      obtain ⟨text, -, rfl⟩ := hchild
      exact name_settled _
    have htagged : element.tagged .value = (texts.map operandElement).map settled := by
      rw [← helement]
      exact (filter_named hnames Tag.value.name).trans (if_pos rfl)
    rw [htagged, List.map_map, List.map_map]
    exact (List.map_congr_left fun text _ => getD_text_settled text).trans (List.map_id texts)
  simp only [Element.condition, hoperator, hname, hvalue, halias, hother, hoperands, ok_bind,
    pure_eq_ok, Option.toList_none, List.nil_append, ← htexts, ← h.inner]

theorem filterParts_conditions {conditions : List Condition}
    (h : ∀ condition ∈ conditions, condition.Legible) (rest : List Element) :
    filterParts ((conditions.map Condition.element).map settled ++ rest) =
      (filterParts rest).map fun parts => (conditions ++ parts.1, parts.2) := by
  induction conditions with
  | nil =>
    simp only [List.map_nil, List.nil_append]
    cases filterParts rest <;> rfl
  | cons condition others ih =>
    rw [List.map_cons, List.map_cons, List.cons_append, filterParts_cons,
      ih fun c hc => h c (List.mem_cons_of_mem _ hc),
      condition_element (h condition List.mem_cons_self)]
    have hname : condition.element.settled.name = Tag.condition.name := name_settled _
    rw [if_pos hname]
    cases filterParts rest <;> rfl

mutual

theorem filter_element : (filter : Filter) →
    (∀ condition ∈ filter.conditionsWithin, condition.Legible) →
    filter.element.settled.filter = .ok filter
  | ⟨connective, conditions, filters⟩, h => by
    simp only [Filter.conditionsWithin, List.mem_append] at h
    rw [Filter.element, settled_element, filter_eq]
    have hconnective : (Tag.filter.element [("type", connective.keyword)]
        ((conditions.map Condition.element ++ Filter.elementAll filters).map settled)).connective? =
        .ok (some connective) := by
      apply keyword?_eq_ok _ Connective.ofKeyword?_keyword
      rfl
    have hparts : filterParts
        ((conditions.map Condition.element ++ Filter.elementAll filters).map settled) =
        .ok (conditions, filters) := by
      rw [List.map_append, filterParts_conditions fun c hc => h c (Or.inl hc),
        filterParts_elementAll filters fun c hc => h c (Or.inr hc)]
      simp [Except.map]
    rw [hconnective, ok_bind]
    simp only [Tag.element, hparts, ok_bind, pure_eq_ok, Option.getD_some]

theorem filterParts_elementAll : (filters : List Filter) →
    (∀ condition ∈ Filter.conditionsWithinAll filters, condition.Legible) →
    filterParts ((Filter.elementAll filters).map settled) = .ok ([], filters)
  | [], _ => rfl
  | filter :: rest, h => by
    simp only [Filter.conditionsWithinAll, List.mem_append] at h
    have hname : filter.element.settled.name = Tag.filter.name := by
      cases filter
      exact name_settled _
    rw [Filter.elementAll, List.map_cons, filterParts_cons,
      filter_element filter fun c hc => h c (Or.inl hc),
      filterParts_elementAll rest fun c hc => h c (Or.inr hc), hname, if_neg (by decide), if_pos rfl]
    rfl

end

end Markup.Element

end RecordQuery
