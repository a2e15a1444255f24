import RecordQuery.Proofs.Document.Parts
import RecordQuery.Proofs.Query.Revision

namespace RecordQuery

open Markup (Element)
open Markup.Element

def contentElements (columns : ColumnSet) (orders : List OrderBy) (filter : Filter)
    (links : List Link) : List Element :=
  (bodyElements columns orders filter ++ Link.elementAll links).map settled

theorem Column.element_settled (column : Column) : column.element.settled = column.element := by
  simp [Column.element]

theorem OrderBy.element_settled (order : OrderBy) : order.element.settled = order.element := by
  simp [OrderBy.element]

theorem ColumnSet.elements_settled (columns : ColumnSet) :
    columns.elements.map settled = columns.elements := by
  cases columns with
  | all => simp [ColumnSet.elements]
  | none => rfl
  | columns listed => simp [ColumnSet.elements, Column.element_settled]

theorem contentElements_eq (columns : ColumnSet) (orders : List OrderBy) (filter : Filter)
    (links : List Link) :
    contentElements columns orders filter links =
      columns.elements ++ (orders.map OrderBy.element ++ (filter.elements.map settled ++
        (Link.elementAll links).map settled)) := by
  simp [contentElements, bodyElements, ColumnSet.elements_settled, OrderBy.element_settled]

theorem Filter.name_element (filter : Filter) : filter.element.name = Tag.filter.name := by
  cases filter
  rfl

theorem Link.name_element (link : Link) : link.element.name = Tag.link.name := by
  cases link
  rfl

theorem Filter.name_elements (filter : Filter) :
    ∀ element ∈ filter.elements.map settled, element.name = Tag.filter.name := by
  intro element helement
  obtain ⟨written, hwritten, rfl⟩ := List.mem_map.mp helement
  rw [name_settled]
  unfold Filter.elements at hwritten
  split at hwritten
  · contradiction
  · rw [List.mem_singleton.mp hwritten, Filter.name_element]

theorem Link.elementAll_eq_map (links : List Link) :
    Link.elementAll links = links.map Link.element := by
  induction links with
  | nil => rfl
  | cons link rest ih => rw [Link.elementAll, ih, List.map_cons]

theorem Link.name_elementAll (links : List Link) :
    ∀ element ∈ (Link.elementAll links).map settled, element.name = Tag.link.name := by
  intro element helement
  rw [Link.elementAll_eq_map, List.map_map] at helement
  obtain ⟨link, -, rfl⟩ := List.mem_map.mp helement
  rw [Function.comp_apply, name_settled, Link.name_element]

theorem ColumnSet.name_elements (columns : ColumnSet) : ∀ element ∈ columns.elements,
    element.name = Tag.allColumns.name ∨ element.name = Tag.column.name := by
  intro element helement
  cases columns with
  | all =>
    rw [List.mem_singleton.mp helement]
    exact Or.inl rfl
  | none => contradiction
  | columns listed =>
    obtain ⟨column, -, rfl⟩ := List.mem_map.mp helement
    exact Or.inr rfl

theorem ColumnSet.filter_elements_eq_nil (columns : ColumnSet) {name : String}
    (hall : Tag.allColumns.name ≠ name) (hcolumn : Tag.column.name ≠ name) :
    columns.elements.filter (·.name == name) = [] := by
  rw [List.filter_eq_nil_iff]
  intro element helement
  rw [beq_iff_eq]
  rcases columns.name_elements element helement with hname | hname
  · rwa [hname]
  · rwa [hname]

theorem OrderBy.name_elements (orders : List OrderBy) :
    ∀ element ∈ orders.map OrderBy.element, element.name = Tag.order.name := by
  intro element helement
  obtain ⟨order, -, rfl⟩ := List.mem_map.mp helement
  rfl

theorem filter_contentElements (columns : ColumnSet) (orders : List OrderBy) (filter : Filter)
    (links : List Link) (name : String) :
    (contentElements columns orders filter links).filter (·.name == name) =
      columns.elements.filter (·.name == name) ++
      ((if Tag.order.name = name then orders.map OrderBy.element else []) ++
      ((if Tag.filter.name = name then filter.elements.map settled else []) ++
        if Tag.link.name = name then (Link.elementAll links).map settled else [])) := by
  rw [contentElements_eq, List.filter_append, List.filter_append, List.filter_append,
    filter_named (OrderBy.name_elements orders), filter_named filter.name_elements,
    filter_named (Link.name_elementAll links)]

namespace Markup.Element

theorem mapM_map_eq_ok {α : Type} {write : α → Element} {read : Element → Except Error α}
    (h : ∀ a, read (write a) = .ok a) (items : List α) :
    (items.map write).mapM read = .ok items := by
  induction items with
  | nil => rfl
  | cons item rest ih => rw [List.map_cons, List.mapM_cons, h, ih]; rfl

theorem linksAmong_cons (aggregate : Bool) (element : Element) (rest : List Element) :
    linksAmong aggregate (element :: rest) =
      if element.name = Tag.link.name then do
        let link ← element.link aggregate
        let links ← linksAmong aggregate rest
        return link :: links
      else linksAmong aggregate rest := by
  cases element
  rw [linksAmong]

theorem linksAmong_append {aggregate : Bool} {front : List Element}
    (h : ∀ element ∈ front, element.name ≠ Tag.link.name) (rest : List Element) :
    linksAmong aggregate (front ++ rest) = linksAmong aggregate rest := by
  induction front with
  | nil => rfl
  | cons element others ih =>
    rw [List.cons_append, linksAmong_cons, if_neg (h element List.mem_cons_self),
      ih fun other hother => h other (List.mem_cons_of_mem _ hother)]

section Contents

variable {element : Element} {columns : ColumnSet} {orders : List OrderBy} {filter : Filter}
  {links : List Link} (h : element.children = contentElements columns orders filter links)

include h

theorem columns_eq_ok (hcolumns : columns ≠ .columns []) : element.columns = .ok columns := by
  have hall : element.tagged .allColumns =
      columns.elements.filter (·.name == Tag.allColumns.name) := by
    rw [tagged, h, filter_contentElements]
    simp [Tag.name]
  have hlisted : element.tagged .column = columns.elements.filter (·.name == Tag.column.name) := by
    rw [tagged, h, filter_contentElements]
    simp [Tag.name]
  unfold Element.columns has
  rw [hall, hlisted]
  cases columns with
  | all => rfl
  | none => rfl
  | columns listed =>
    have hnames : ∀ element ∈ listed.map Column.element, element.name = Tag.column.name := by
      intro element helement
      obtain ⟨column, -, rfl⟩ := List.mem_map.mp helement
      rfl
    have hnone : (ColumnSet.columns listed).elements.filter (·.name == Tag.allColumns.name) = [] :=
      (filter_named hnames _).trans (if_neg (by decide))
    have hsome : ((ColumnSet.columns listed).elements.filter (·.name == Tag.column.name)) =
        listed.map Column.element :=
      (filter_named hnames _).trans (if_pos rfl)
    rw [hnone, hsome, mapM_map_eq_ok column_element]
    cases listed with
    | nil => exact absurd rfl hcolumns
    | cons column rest => rfl

theorem orders_eq_ok (aggregate : Bool) :
    element.orders aggregate = .ok (OrderBy.kept aggregate orders) := by
  unfold Element.orders OrderBy.kept
  cases aggregate with
  | true => rfl
  | false =>
    have htagged : element.tagged .order = orders.map OrderBy.element := by
      rw [tagged, h, filter_contentElements,
        columns.filter_elements_eq_nil (by decide) (by decide)]
      simp [Tag.name]
    rw [if_neg Bool.false_ne_true, if_neg Bool.false_ne_true, htagged,
      mapM_map_eq_ok order_element]

theorem criteria_eq_ok (hfilter : ∀ condition ∈ filter.conditionsWithin, condition.Legible) :
    element.criteria = .ok filter := by
  have htagged : element.tagged .filter = filter.elements.map settled := by
    rw [tagged, h, filter_contentElements, columns.filter_elements_eq_nil (by decide) (by decide)]
    simp [Tag.name]
  rw [criteria, htagged]
  unfold Filter.elements
  split
  · rfl
  · rw [List.map_singleton, List.mapM_cons, filter_element filter hfilter]
    rfl

theorem linksAmong_children (aggregate : Bool) :
    linksAmong aggregate element.children =
      linksAmong aggregate ((Link.elementAll links).map settled) := by
  rw [h, contentElements_eq, linksAmong_append, linksAmong_append, linksAmong_append]
  · intro child hchild
    rw [filter.name_elements child hchild]
    decide
  · intro child hchild
    rw [OrderBy.name_elements orders child hchild]
    decide
  · intro child hchild
    rcases columns.name_elements child hchild with hname | hname <;> rw [hname] <;> decide

end Contents

theorem link_eq (aggregate : Bool) (element : Element) :
    element.link aggregate = (do
      let source ← element.required "to"
      let entity ← element.required "name"
      let target ← element.required "from"
      let kind? ← element.joinKind?
      let columns ← element.columns
      let filter ← element.criteria
      let orders ← element.orders aggregate
      let links ← linksAmong aggregate element.children
      return ⟨source, entity, target, kind?.getD .inner, element.attribute? "alias", columns,
        filter, orders, links⟩) := by
  cases element
  rw [Element.link]

theorem attributes_kind (kind : JoinKind) :
    kind.attributes = given "link-type" (if kind = .inner then none else some kind.keyword) := by
  unfold JoinKind.attributes
  split <;> rfl

mutual

theorem link_element (aggregate : Bool) : (link : Link) →
    (∀ inner ∈ link.within, inner.Legible) →
    link.element.settled.link aggregate = .ok (link.revise id (OrderBy.kept aggregate))
  | ⟨source, entity, target, kind, alias?, columns, filter, orders, links⟩, h => by
    rw [Link.within] at h
    have hown := h _ List.mem_cons_self
    have hlinks := linksAmong_elementAll aggregate links fun inner hinner =>
      h inner (List.mem_cons_of_mem _ hinner)
    rw [Link.element, settled_element, link_eq, attributes_kind]
    generalize helement : Tag.link.element _ _ = element
    have hchildren : element.children = contentElements columns orders filter links := by
      rw [← helement]
      rfl
    have hsource : element.required "to" = .ok source := by
      apply required_eq_ok
      simp [← helement, List.lookup_cons]
    have hentity : element.required "name" = .ok entity := by
      apply required_eq_ok
      simp [← helement]
    have htarget : element.required "from" = .ok target := by
      apply required_eq_ok
      simp [← helement, List.lookup_cons]
    have halias : element.attribute? "alias" = alias? := by
      simp [← helement, List.lookup_append, List.lookup_cons]
    have hkind : element.joinKind? = .ok (if kind = .inner then none else some kind) := by
      apply keyword?_eq_ok _ JoinKind.ofKeyword?_keyword
      simp only [← helement, attribute?_element, List.lookup_append]
      split <;> simp [List.lookup_cons]
    have hgetD : (if kind = .inner then none else some kind).getD .inner = kind := by
      split
      · rename_i hinner
        exact hinner.symm
      · rfl
    simp only [hsource, hentity, htarget, hkind, halias, columns_eq_ok hchildren hown.nonempty,
      criteria_eq_ok hchildren hown.conditions, orders_eq_ok hchildren aggregate,
      linksAmong_children hchildren, hlinks, ok_bind, pure_eq_ok, hgetD, Link.revise, id_eq]

theorem linksAmong_elementAll (aggregate : Bool) : (links : List Link) →
    (∀ inner ∈ Link.withinAll links, inner.Legible) →
    linksAmong aggregate ((Link.elementAll links).map settled) =
      .ok (Link.reviseAll id (OrderBy.kept aggregate) links)
  | [], _ => rfl
  | link :: rest, h => by
    simp only [Link.withinAll, List.mem_append] at h
    have hname : link.element.settled.name = Tag.link.name := by
      rw [name_settled, Link.name_element]
    rw [Link.elementAll, List.map_cons, linksAmong_cons, if_pos hname,
      link_element aggregate link fun inner hinner => h inner (Or.inl hinner),
      linksAmong_elementAll aggregate rest fun inner hinner => h inner (Or.inr hinner)]
    rfl

end

end Markup.Element

end RecordQuery
