import RecordQuery.Proofs.Document.Keywords
import RecordQuery.Proofs.Markup.Documents

namespace RecordQuery

open Markup (Element isPlainName)
open Markup.Element

def Under (names : List String) (attributes : List (String × String)) : Prop :=
  (attributes.map Prod.fst).Sublist names

namespace Under

theorem single (name value : String) : Under [name] [(name, value)] :=
  List.Sublist.refl _

theorem given (name : String) (value? : Option String) : Under [name] (given name value?) := by
  cases value? with
  | none => exact List.nil_sublist _
  | some value => exact single name value

theorem flagged (name : String) (flag : Bool) : Under [name] (flagged name flag) := by
  cases flag with
  | false => exact List.nil_sublist _
  | true => exact single name "true"

theorem append {names others : List String} {attributes behind : List (String × String)}
    (h : Under names attributes) (h' : Under others behind) :
    Under (names ++ others) (attributes ++ behind) := by
  unfold Under
  rw [List.map_append]
  exact List.Sublist.append h h'

end Under

theorem Markup.Element.namedAll_iff {elements : List Element} :
    NamedAll elements ↔ ∀ element ∈ elements, element.Named := by
  induction elements with
  | nil => simp [NamedAll]
  | cons element rest ih => simp [NamedAll, ih]

theorem Tag.named_element (tag : Tag) {names : List String} {attributes : List (String × String)}
    {children : List Element} (h : Under names attributes)
    (hplain : ∀ name ∈ names, isPlainName name = true) (hnodup : names.Nodup)
    (hchildren : ∀ child ∈ children, child.Named) : (tag.element attributes children).Named := by
  refine ⟨tag.isPlainName_name, ?_, h.nodup hnodup, namedAll_iff.mpr hchildren⟩
  intro a ha
  exact hplain a.1 (h.subset (List.mem_map_of_mem ha))

theorem Column.named_element (column : Column) : column.element.Named := by
  apply Tag.named_element _ ((((((Under.single _ _).append (.given _ _)).append
    (.given _ _)).append (.flagged _ _)).append (.given _ _)).append (.flagged _ _))
  · decide
  · decide
  · simp

theorem ColumnSet.named_elements (columns : ColumnSet) :
    ∀ element ∈ columns.elements, element.Named := by
  intro element helement
  cases columns with
  | all =>
    rw [List.mem_singleton.mp helement]
    exact ⟨by decide, by simp, List.nodup_nil, trivial⟩
  | none => contradiction
  | columns listed =>
    obtain ⟨column, -, rfl⟩ := List.mem_map.mp helement
    exact column.named_element

theorem OrderBy.named_element (order : OrderBy) : order.element.Named := by
  apply Tag.named_element _ (((Under.single _ _).append (.given _ _)).append (.flagged _ _))
  · decide
  · decide
  · simp

theorem Condition.named_element (condition : Condition) : condition.element.Named := by
  have hpair : Under (["attribute"] ++ ["operator"])
      ([("attribute", condition.column)] ++ [("operator", condition.operator.written.1)]) :=
    (Under.single _ _).append (.single _ _)
  apply Tag.named_element _ (((Under.given _ _).append hpair).append (.given _ _))
  · decide
  · decide
  · intro child hchild
    split at hchild
    · contradiction
    · obtain ⟨text, -, rfl⟩ := List.mem_map.mp hchild
      exact ⟨Tag.isPlainName_name .value, by simp, List.nodup_nil, trivial⟩

mutual

theorem Filter.named_element : (filter : Filter) → filter.element.Named
  | ⟨connective, conditions, filters⟩ => by
    rw [Filter.element]
    apply Tag.named_element _ (Under.single _ _)
    · decide
    · decide
    · intro child hchild
      rcases List.mem_append.mp hchild with hchild | hchild
      · obtain ⟨condition, -, rfl⟩ := List.mem_map.mp hchild
        exact condition.named_element
      · exact Filter.named_elementAll filters child hchild

theorem Filter.named_elementAll : (filters : List Filter) →
    ∀ element ∈ Filter.elementAll filters, element.Named
  | [] => by simp [Filter.elementAll]
  | filter :: rest =>
    List.forall_mem_cons.mpr ⟨Filter.named_element filter, Filter.named_elementAll rest⟩

end

theorem bodyElements_named (columns : ColumnSet) (orders : List OrderBy) (filter : Filter) :
    ∀ element ∈ bodyElements columns orders filter, element.Named := by
  intro element helement
  simp only [bodyElements, List.mem_append] at helement
  rcases helement with (helement | helement) | helement
  · exact columns.named_elements element helement
  · obtain ⟨order, -, rfl⟩ := List.mem_map.mp helement
    exact order.named_element
  · unfold Filter.elements at helement
    split at helement
    · contradiction
    · rw [List.mem_singleton.mp helement]
      exact filter.named_element

theorem JoinKind.under_attributes (kind : JoinKind) : Under ["link-type"] kind.attributes := by
  unfold JoinKind.attributes
  split
  · exact List.nil_sublist _
  · exact Under.single _ _

mutual

theorem Link.named_element : (link : Link) → link.element.Named
  | ⟨source, entity, target, kind, alias?, columns, filter, orders, links⟩ => by
    have htriple : Under (["name"] ++ ["from"] ++ ["to"])
        ([("name", entity)] ++ [("from", target)] ++ [("to", source)]) :=
      ((Under.single _ _).append (.single _ _)).append (.single _ _)
    rw [Link.element]
    apply Tag.named_element _ ((htriple.append (.given _ _)).append kind.under_attributes)
    · decide
    · decide
    · intro child hchild
      rcases List.mem_append.mp hchild with hchild | hchild
      · exact bodyElements_named columns orders filter child hchild
      · exact Link.named_elementAll links child hchild

theorem Link.named_elementAll : (links : List Link) →
    ∀ element ∈ Link.elementAll links, element.Named
  | [] => by simp [Link.elementAll]
  | link :: rest =>
    List.forall_mem_cons.mpr ⟨Link.named_element link, Link.named_elementAll rest⟩

end

theorem Query.named_element (query : Query) : query.element.Named := by
  have hflags : Under _ (flagged "aggregate" query.aggregate ++ flagged "distinct" query.distinct ++
      given "top" (query.top?.map Text.natText) ++
      given "count" (query.paging.count?.map Text.natText) ++
      given "page" (query.paging.page?.map Text.natText) ++
      flagged "returntotalrecordcount" query.paging.totalCount) :=
    ((((((Under.flagged _ _).append (.flagged _ _)).append (.given _ _)).append
      (.given _ _)).append (.given _ _)).append (.flagged _ _))
  apply Tag.named_element _ hflags
  · decide
  · decide
  · intro child hchild
    rw [List.mem_singleton.mp hchild]
    apply Tag.named_element _ (Under.single _ _)
    · decide
    · decide
    · intro element helement
      rcases List.mem_append.mp helement with helement | helement
      · exact bodyElements_named query.columns query.orders query.criteria element helement
      · exact Link.named_elementAll query.links element helement

end RecordQuery
