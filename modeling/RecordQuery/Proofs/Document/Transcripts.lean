import RecordQuery.Proofs.Document.RoundTrip
import RecordQuery.Proofs.Query.Transcript

namespace RecordQuery

open Markup (isAttributeText isElementText)

namespace Operator

theorem isSome_keyword?_transcript (operator : Operator) :
    operator.transcript.keyword?.isSome = true := by
  have hall : ∀ candidate ∈ Operator.all, candidate.transcript.keyword?.isSome = true := by
    decide
  exact hall operator operator.mem_all

theorem written_transcript (operator : Operator) :
    operator.transcript.written = (operator.written.1, id) := by
  cases operator with
  | text form negated => cases form <;> cases negated <;> rfl
  | _ => rfl

theorem isElementText_written (operator : Operator) {text : String}
    (h : isElementText text = true) : isElementText (operator.written.2 text) = true := by
  have hpattern : isElementText ("%" ++ text ++ "%") = true := by
    simp only [isElementText, String.toList_append, List.all_append, Bool.and_eq_true]
    exact ⟨⟨by decide, h⟩, by decide⟩
  cases operator with
  | text form negated => cases form <;> cases negated <;> first | exact h | exact hpattern
  | _ => exact h

end Operator

theorem Condition.element_transcript (condition : Condition) :
    condition.transcript.element = condition.element := by
  have hword : condition.transcript.operator.written = (condition.operator.written.1, id) :=
    condition.operator.written_transcript
  have hchildren : (if condition.other?.isSome then [] else condition.transcript.operandElements) =
      if condition.other?.isSome then [] else condition.operandElements := by
    -- A condition on two columns is written without operands.
    cases hother : condition.other?.isSome with
    | true => rfl
    | false =>
      have htexts : Value.operandTextsAll condition.transcript.values =
          (Value.operandTextsAll condition.values).map condition.operator.written.2 := by
        rw [← Value.operandTextsAll_map_text (List.map _ _), List.map_map]
        simp [transcript, hother, Function.comp_def]
      unfold operandElements
      rw [hword, htexts, List.map_map]
      rfl
  rw [element, element, hword, ← hchildren]
  rfl

namespace Filter

mutual

theorem element_transcript : (filter : Filter) → filter.transcript.element = filter.element
  | ⟨connective, conditions, filters⟩ => by
    have hconditions : (conditions.map Condition.transcript).map Condition.element =
        conditions.map Condition.element := by
      rw [List.map_map]
      exact List.map_congr_left fun condition _ => condition.element_transcript
    rw [transcript, element, element, hconditions, elementAll_transcript filters]

theorem elementAll_transcript : (filters : List Filter) →
    elementAll (transcriptAll filters) = elementAll filters
  | [] => rfl
  | filter :: rest => by
    rw [transcriptAll, elementAll, elementAll, element_transcript filter,
      elementAll_transcript rest]

end

mutual

theorem transcript_eq : (filter : Filter) →
    filter.transcript = filter.mapConditions Condition.transcript
  | ⟨connective, conditions, filters⟩ => by
    rw [transcript, mapConditions, transcriptAll_eq filters]

theorem transcriptAll_eq : (filters : List Filter) →
    transcriptAll filters = mapConditionsAll Condition.transcript filters
  | [] => rfl
  | filter :: rest => by
    rw [transcriptAll, mapConditionsAll, transcript_eq filter, transcriptAll_eq rest]

end

theorem elements_mapConditions {f : Condition → Condition} {g : Markup.Element → Markup.Element}
    {filter : Filter} (h : (filter.mapConditions f).element = g filter.element) :
    (filter.mapConditions f).elements = filter.elements.map g := by
  obtain ⟨connective, conditions, filters⟩ := filter
  cases connective with
  | and =>
    cases conditions with
    | nil =>
      cases filters with
      | nil => rfl
      | cons filter rest => exact congrArg (fun element => [element]) h
    | cons condition rest => exact congrArg (fun element => [element]) h
  | or => exact congrArg (fun element => [element]) h

theorem elements_transcript (filter : Filter) : filter.transcript.elements = filter.elements := by
  have helement := filter.element_transcript
  rw [transcript_eq] at helement ⊢
  rw [elements_mapConditions (g := id) helement, List.map_id]

theorem conditionsWithin_transcript (filter : Filter) :
    filter.transcript.conditionsWithin = filter.conditionsWithin.map Condition.transcript := by
  rw [transcript_eq, conditionsWithin_mapConditions]

end Filter

theorem bodyElements_transcript (columns : ColumnSet) (orders : List OrderBy) (filter : Filter) :
    bodyElements columns orders filter.transcript = bodyElements columns orders filter := by
  rw [bodyElements, bodyElements, filter.elements_transcript]

mutual

theorem Link.element_transcript : (link : Link) →
    (link.revise Filter.transcript id).element = link.element
  | ⟨source, entity, target, kind, alias?, columns, filter, orders, links⟩ => by
    rw [revise, element, element, bodyElements_transcript, Link.elementAll_transcript links]
    rfl

theorem Link.elementAll_transcript : (links : List Link) →
    elementAll (reviseAll Filter.transcript id links) = elementAll links
  | [] => rfl
  | link :: rest => by
    rw [reviseAll, elementAll, elementAll, Link.element_transcript link,
      Link.elementAll_transcript rest]

end

theorem Query.document_transcript (query : Query) :
    query.transcript.document = query.document := by
  have helement : query.transcript.element = query.element := by
    unfold Query.element Query.transcript Query.revise
    rw [bodyElements_transcript, Link.elementAll_transcript]
    rfl
  rw [Query.document, Query.document, helement]

structure Condition.Writable (condition : Condition) : Prop where
  column : isAttributeText condition.column = true
  aliasName : ∀ name ∈ condition.alias?, isAttributeText name = true
  other : ∀ name ∈ condition.other?, isAttributeText name = true
  operands : ∀ text ∈ Value.operandTextsAll condition.values, isElementText text = true
  inner : condition.outer = false

structure Link.Writable (link : Link) : Prop where
  source : isAttributeText link.source = true
  entity : isAttributeText link.entity = true
  target : isAttributeText link.target = true
  named : ∃ aliasName, link.alias? = some aliasName ∧ Aliases.isValid aliasName = true
  columns : link.columns.Expressible
  conditions : ∀ condition ∈ link.filter.conditionsWithin, condition.Writable
  orders : ∀ order ∈ link.orders, order.Expressible

structure Query.Writable (query : Query) : Prop where
  entity : isAttributeText query.entity = true
  columns : query.columns.Expressible
  conditions : ∀ condition ∈ query.criteria.conditionsWithin, condition.Writable
  orders : ∀ order ∈ query.orders, order.Expressible
  links : ∀ link ∈ Link.withinAll query.links, link.Writable
  aliases : (Link.explicitAliasesAll query.links).Nodup
  top : ∀ n ∈ query.top?, n < limit64
  count : ∀ n ∈ query.paging.count?, n < limit64
  page : ∀ n ∈ query.paging.page?, n < limit64

theorem Condition.Writable.transcript {condition : Condition} (h : condition.Writable) :
    condition.transcript.Expressible where
  column := h.column
  aliasName := h.aliasName
  other := h.other
  spelled := condition.operator.isSome_keyword?_transcript
  operands := by
    intro value hvalue
    unfold Condition.transcript at hvalue
    split at hvalue
    · contradiction
    · obtain ⟨text, htext, rfl⟩ := List.mem_map.mp hvalue
      exact ⟨_, rfl, condition.operator.isElementText_written (h.operands text htext)⟩
  alone := by
    intro hother
    exact if_pos hother
  inner := h.inner

theorem Filter.expressible_transcript {filter : Filter}
    (h : ∀ condition ∈ filter.conditionsWithin, condition.Writable) :
    ∀ condition ∈ filter.transcript.conditionsWithin, condition.Expressible := by
  intro condition hcondition
  rw [filter.conditionsWithin_transcript] at hcondition
  obtain ⟨written, hwritten, rfl⟩ := List.mem_map.mp hcondition
  exact (h written hwritten).transcript

theorem Link.Writable.transcript {link : Link} (h : link.Writable) :
    (link.revise Filter.transcript id).Expressible false := by
  obtain ⟨source, entity, target, kind, alias?, columns, filter, orders, links⟩ := link
  exact {
    source := h.source
    entity := h.entity
    target := h.target
    named := h.named
    columns := h.columns
    conditions := Filter.expressible_transcript h.conditions
    orders := h.orders
    unordered := nofun }

namespace Query

variable {query : Query}

theorem Writable.transcript (h : query.Writable) : query.transcript.ordinary.Expressible where
  entity := h.entity
  columns := h.columns
  conditions := Filter.expressible_transcript h.conditions
  orders := h.orders
  unordered := nofun
  links := by
    intro link hlink
    have hwithin : link ∈ Link.withinAll (Link.reviseAll Filter.transcript id query.links) := hlink
    rw [Link.withinAll_reviseAll] at hwithin
    obtain ⟨written, hwritten, rfl⟩ := List.mem_map.mp hwithin
    exact (h.links written hwritten).transcript
  aliases := by
    have hnodup := h.aliases
    rw [← Link.explicitAliasesAll_reviseAll Filter.transcript id] at hnodup
    exact hnodup
  top := h.top
  count := h.count
  page := h.page

theorem Writable.ofDocument (h : query.Writable) :
    Query.ofDocument query.document = .ok query.transcript.unordered := by
  rw [← query.document_transcript]
  exact ofDocument_element h.transcript

end Query

end RecordQuery
