import RecordQuery.Proofs.Document.Contents

namespace RecordQuery

open Markup (Element)
open Markup.Element

namespace Tag

theorem checkElement_eq (tag : Tag) (element : Element) :
    tag.checkElement element = (do
      tag.check element
      checkElements element.children) := by
  cases element
  rw [checkElement]

def Accepts (tag : Tag) (elements : List Element) : Prop :=
  ∀ element ∈ elements, ∃ inner : Tag, element.name = inner.name ∧ inner ∈ tag.contents ∧
    inner.checkElement element = .ok ()

theorem Accepts.nil (tag : Tag) : tag.Accepts [] := by
  intro element helement
  contradiction

theorem Accepts.cons {tag inner : Tag} {element : Element} {rest : List Element}
    (hname : element.name = inner.name) (hinner : inner ∈ tag.contents)
    (hcheck : inner.checkElement element = .ok ()) (h : tag.Accepts rest) :
    tag.Accepts (element :: rest) :=
  List.forall_mem_cons.mpr ⟨⟨inner, hname, hinner, hcheck⟩, h⟩

theorem Accepts.append {tag : Tag} {front behind : List Element} (h : tag.Accepts front)
    (h' : tag.Accepts behind) : tag.Accepts (front ++ behind) := by
  intro element helement
  rcases List.mem_append.mp helement with helement | helement
  · exact h element helement
  · exact h' element helement

theorem Accepts.checkContents {tag : Tag} {elements : List Element} (h : tag.Accepts elements) :
    tag.checkContents elements = .ok () := by
  induction elements with
  | nil => rfl
  | cons element rest ih =>
    obtain ⟨inner, hname, hinner, -⟩ := h element List.mem_cons_self
    rw [Tag.checkContents, hname, ofName?_name]
    simp only [List.contains_eq_mem, hinner, decide_true, if_true]
    exact ih fun other hother => h other (List.mem_cons_of_mem _ hother)

theorem Accepts.checkElements {tag : Tag} {elements : List Element} (h : tag.Accepts elements) :
    Tag.checkElements elements = .ok () := by
  induction elements with
  | nil => rfl
  | cons element rest ih =>
    obtain ⟨inner, hname, -, hcheck⟩ := h element List.mem_cons_self
    have hrest := ih fun other hother => h other (List.mem_cons_of_mem _ hother)
    obtain ⟨name, attributes, children, text?⟩ := element
    simp only at hname
    rw [Tag.checkElements, hname, ofName?_name]
    rw [← hname]
    simp only [hcheck, hrest, ok_bind]

theorem checkElement_eq_ok {tag : Tag} {element : Element}
    (hattributes : tag.checkAttributes element = .ok ()) (h : tag.Accepts element.children) :
    tag.checkElement element = .ok () := by
  rw [checkElement_eq, h.checkElements]
  cases tag <;> simp only [check, hattributes, h.checkContents, ok_bind]

end Tag

theorem Column.checkElement_element (column : Column) :
    Tag.column.checkElement column.element = .ok () := by
  apply Tag.checkElement_eq_ok _ (Tag.Accepts.nil _)
  have hread := column_element column
  obtain ⟨name, hname, hread⟩ := bind_eq_ok_iff.mp hread
  obtain ⟨groupBy, -, hread⟩ := bind_eq_ok_iff.mp hread
  obtain ⟨distinct, -, hread⟩ := bind_eq_ok_iff.mp hread
  obtain ⟨aggregate?, haggregate, hread⟩ := bind_eq_ok_iff.mp hread
  obtain ⟨grouping?, hgrouping, -⟩ := bind_eq_ok_iff.mp hread
  simp only [Tag.checkAttributes, hname, haggregate, hgrouping, ok_bind, pure_eq_ok]

theorem OrderBy.checkElement_element (order : OrderBy) :
    Tag.order.checkElement order.element = .ok () :=
  Tag.checkElement_eq_ok rfl (Tag.Accepts.nil _)

theorem Condition.Legible.checkElement_element {condition : Condition}
    (h : condition.Legible) : Tag.condition.checkElement condition.element.settled = .ok () := by
  apply Tag.checkElement_eq_ok
  · have hread := condition_element h
    obtain ⟨operator, hoperator, hread⟩ := bind_eq_ok_iff.mp hread
    obtain ⟨name, hname, -⟩ := bind_eq_ok_iff.mp hread
    simp only [Tag.checkAttributes, hoperator, hname, ok_bind, pure_eq_ok]
  · obtain ⟨keyword, hkeyword⟩ := Option.isSome_iff_exists.mp h.spelled
    obtain ⟨texts, htexts⟩ := h.exists_texts
    rw [h.element_eq hkeyword htexts, settled_element]
    intro element helement
    simp only [Tag.element, List.map_map, List.mem_map, Function.comp_apply] at helement
    obtain ⟨text, -, rfl⟩ := helement
    refine ⟨Tag.value, name_settled _, by decide, ?_⟩
    exact Tag.checkElement_eq_ok rfl (Tag.Accepts.nil _)

mutual

theorem Filter.checkElement_element : (filter : Filter) →
    (∀ condition ∈ filter.conditionsWithin, condition.Legible) →
    Tag.filter.checkElement filter.element.settled = .ok ()
  | ⟨connective, conditions, filters⟩, h => by
    apply Tag.checkElement_eq_ok
    · have hread := filter_element _ h
      rw [filter_eq] at hread
      obtain ⟨connective?, hconnective, -⟩ := bind_eq_ok_iff.mp hread
      simp only [Tag.checkAttributes, hconnective, ok_bind, pure_eq_ok]
    · simp only [Filter.conditionsWithin, List.mem_append] at h
      rw [Filter.element, settled_element, List.map_append]
      apply Tag.Accepts.append _
        (Filter.accepts_elementAll filters fun c hc => h c (Or.inr hc))
      intro element helement
      simp only [List.map_map, List.mem_map, Function.comp_apply] at helement
      obtain ⟨condition, hcondition, rfl⟩ := helement
      exact ⟨Tag.condition, name_settled _, by decide,
        (h condition (Or.inl hcondition)).checkElement_element⟩

theorem Filter.accepts_elementAll : (filters : List Filter) →
    (∀ condition ∈ Filter.conditionsWithinAll filters, condition.Legible) →
    Tag.filter.Accepts ((Filter.elementAll filters).map settled)
  | [], _ => Tag.Accepts.nil _
  | filter :: rest, h => by
    simp only [Filter.conditionsWithinAll, List.mem_append] at h
    have hfirst := Filter.checkElement_element filter fun c hc => h c (Or.inl hc)
    have hrest := Filter.accepts_elementAll rest fun c hc => h c (Or.inr hc)
    rw [Filter.elementAll, List.map_cons]
    exact .cons (by rw [name_settled, Filter.name_element]) (by decide) hfirst hrest

end

theorem Filter.accepts_elements {filter : Filter}
    (h : ∀ condition ∈ filter.conditionsWithin, condition.Legible) :
    Tag.link.Accepts (filter.elements.map settled) := by
  intro element helement
  refine ⟨Tag.filter, filter.name_elements element helement, by decide, ?_⟩
  obtain ⟨written, hwritten, rfl⟩ := List.mem_map.mp helement
  unfold Filter.elements at hwritten
  split at hwritten
  · contradiction
  · rw [List.mem_singleton.mp hwritten]
    exact Filter.checkElement_element filter h

theorem ColumnSet.accepts_elements (columns : ColumnSet) : Tag.link.Accepts columns.elements := by
  intro element helement
  cases columns with
  | all =>
    rw [List.mem_singleton.mp helement]
    exact ⟨Tag.allColumns, rfl, by decide, Tag.checkElement_eq_ok rfl (Tag.Accepts.nil _)⟩
  | none => contradiction
  | columns listed =>
    obtain ⟨column, -, rfl⟩ := List.mem_map.mp helement
    exact ⟨Tag.column, rfl, by decide, column.checkElement_element⟩

theorem OrderBy.accepts_elements (orders : List OrderBy) :
    Tag.link.Accepts (orders.map OrderBy.element) := by
  intro element helement
  obtain ⟨order, -, rfl⟩ := List.mem_map.mp helement
  exact ⟨Tag.order, rfl, by decide, order.checkElement_element⟩

theorem Tag.accepts_contentElements {columns : ColumnSet} {orders : List OrderBy} {filter : Filter}
    {links : List Link} (hfilter : ∀ condition ∈ filter.conditionsWithin, condition.Legible)
    (hlinks : Tag.link.Accepts ((Link.elementAll links).map settled)) :
    Tag.link.Accepts (contentElements columns orders filter links) := by
  rw [contentElements_eq]
  exact columns.accepts_elements.append ((OrderBy.accepts_elements orders).append
    ((Filter.accepts_elements hfilter).append hlinks))

mutual

theorem Link.checkElement_element : (link : Link) →
    (∀ inner ∈ link.within, inner.Legible) →
    Tag.link.checkElement link.element.settled = .ok ()
  | ⟨source, entity, target, kind, alias?, columns, filter, orders, links⟩, h => by
    apply Tag.checkElement_eq_ok
    · have hread := link_element false _ h
      rw [link_eq] at hread
      obtain ⟨source, hsource, hread⟩ := bind_eq_ok_iff.mp hread
      obtain ⟨entity, hentity, hread⟩ := bind_eq_ok_iff.mp hread
      obtain ⟨target, htarget, hread⟩ := bind_eq_ok_iff.mp hread
      obtain ⟨kind?, hkind, -⟩ := bind_eq_ok_iff.mp hread
      simp only [Tag.checkAttributes, hsource, hentity, htarget, hkind, ok_bind, pure_eq_ok]
    · rw [Link.within] at h
      rw [Link.element, settled_element]
      exact Tag.accepts_contentElements (h _ List.mem_cons_self).conditions
        (Link.accepts_elementAll links fun inner hinner => h inner (List.mem_cons_of_mem _ hinner))

theorem Link.accepts_elementAll : (links : List Link) →
    (∀ inner ∈ Link.withinAll links, inner.Legible) →
    Tag.link.Accepts ((Link.elementAll links).map settled)
  | [], _ => Tag.Accepts.nil _
  | link :: rest, h => by
    simp only [Link.withinAll, List.mem_append] at h
    have hfirst := Link.checkElement_element link fun inner hinner => h inner (Or.inl hinner)
    have hrest := Link.accepts_elementAll rest fun inner hinner => h inner (Or.inr hinner)
    rw [Link.elementAll, List.map_cons]
    exact .cons (by rw [name_settled, Link.name_element]) (by decide) hfirst hrest

end

end RecordQuery
