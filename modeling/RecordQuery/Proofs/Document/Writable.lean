import RecordQuery.Proofs.Document.Contents
import RecordQuery.Proofs.Document.Names

namespace RecordQuery

open Markup (Element isAttributeText isElementText isPlainName)
open Markup.Element

def Fits (names : List String) (attributes : List (String × String)) : Prop :=
  Under names attributes ∧ ∀ a ∈ attributes, isAttributeText a.2 = true

namespace Fits

theorem single {name value : String} (h : isAttributeText value = true) :
    Fits [name] [(name, value)] := by
  refine ⟨.single name value, ?_⟩
  intro a ha
  rw [List.mem_singleton.mp ha]
  exact h

theorem given {name : String} {value? : Option String}
    (h : ∀ value ∈ value?, isAttributeText value = true) : Fits [name] (given name value?) := by
  refine ⟨.given name value?, ?_⟩
  cases value? with
  | none => simp [RecordQuery.given]
  | some value => exact (single (h value rfl)).2

theorem flagged (name : String) (flag : Bool) : Fits [name] (flagged name flag) := by
  refine ⟨.flagged name flag, ?_⟩
  cases flag with
  | false => simp [RecordQuery.flagged]
  | true =>
    have htrue : Fits [name] [(name, "true")] := single (by decide)
    exact htrue.2

theorem append {names others : List String} {attributes behind : List (String × String)}
    (h : Fits names attributes) (h' : Fits others behind) :
    Fits (names ++ others) (attributes ++ behind) := by
  refine ⟨h.1.append h'.1, ?_⟩
  intro a ha
  rcases List.mem_append.mp ha with ha | ha
  · exact h.2 a ha
  · exact h'.2 a ha

end Fits

theorem Markup.Element.writableAll_iff {elements : List Element} :
    WritableAll elements ↔ ∀ element ∈ elements, element.Writable := by
  induction elements with
  | nil => simp [WritableAll]
  | cons element rest ih => simp [WritableAll, ih]

theorem Tag.writable_element (tag : Tag) {names : List String}
    {attributes : List (String × String)} {children : List Element}
    (h : Fits names attributes) (hplain : ∀ name ∈ names, isPlainName name = true)
    (hnodup : names.Nodup) (hchildren : ∀ child ∈ children, child.Writable) :
    (tag.element attributes children).Writable := by
  refine ⟨tag.isPlainName_name, ?_, h.1.nodup hnodup, rfl, writableAll_iff.mpr hchildren⟩
  intro a ha
  exact ⟨hplain a.1 (h.1.subset (List.mem_map_of_mem ha)), h.2 a ha⟩

theorem Fits.keyword {α : Type} {name : String} {keyword : α → String} {meaning? : Option α}
    (h : ∀ meaning, isAttributeText (keyword meaning) = true) :
    Fits [name] (RecordQuery.given name (meaning?.map keyword)) := by
  apply Fits.given
  intro value hvalue
  obtain ⟨meaning, -, rfl⟩ := Option.map_eq_some_iff.mp hvalue
  exact h meaning

theorem Column.Expressible.writable {column : Column} (h : column.Expressible) :
    column.element.Writable := by
  apply Tag.writable_element _ ((((((Fits.single h.name).append (.given h.aliasName)).append
    (.keyword AggregateFunction.isAttributeText_keyword)).append (.flagged _ _)).append
    (.keyword DateGrouping.isAttributeText_keyword)).append (.flagged _ _))
  · decide
  · decide
  · simp

theorem OrderBy.Expressible.writable {order : OrderBy} (h : order.Expressible) :
    order.element.Writable := by
  apply Tag.writable_element _ (((Fits.single h.column).append (.given h.aliasName)).append
    (.flagged _ _))
  · decide
  · decide
  · simp

theorem Condition.Expressible.writable {condition : Condition} (h : condition.Expressible) :
    condition.element.Writable := by
  obtain ⟨keyword, hkeyword⟩ := Option.isSome_iff_exists.mp h.spelled
  obtain ⟨texts, htexts⟩ := h.legible.exists_texts
  rw [h.legible.element_eq hkeyword htexts]
  have hpair : Fits (["attribute"] ++ ["operator"])
      ([("attribute", condition.column)] ++ [("operator", keyword)]) :=
    (Fits.single h.column).append (.single (Operator.isAttributeText_keyword hkeyword))
  apply Tag.writable_element _ (((Fits.given h.aliasName).append hpair).append (.given h.other))
  · decide
  · decide
  · intro child hchild
    obtain ⟨text, htext, rfl⟩ := List.mem_map.mp hchild
    obtain ⟨operand, hoperand, htext'⟩ := h.operands (.text text)
      (by rw [htexts]; exact List.mem_map_of_mem htext)
    obtain rfl := Value.text.inj hoperand
    exact ⟨Tag.isPlainName_name .value, by simp, List.nodup_nil, htext', trivial⟩

mutual

theorem Filter.writable_element : (filter : Filter) →
    (∀ condition ∈ filter.conditionsWithin, condition.Expressible) → filter.element.Writable
  | ⟨connective, conditions, filters⟩, h => by
    simp only [Filter.conditionsWithin, List.mem_append] at h
    have hfilters := Filter.writable_elementAll filters fun c hc => h c (Or.inr hc)
    rw [Filter.element]
    apply Tag.writable_element _ (Fits.single connective.isAttributeText_keyword)
    · decide
    · decide
    · intro child hchild
      rcases List.mem_append.mp hchild with hchild | hchild
      · obtain ⟨condition, hcondition, rfl⟩ := List.mem_map.mp hchild
        exact (h condition (Or.inl hcondition)).writable
      · exact hfilters child hchild

theorem Filter.writable_elementAll : (filters : List Filter) →
    (∀ condition ∈ Filter.conditionsWithinAll filters, condition.Expressible) →
    ∀ element ∈ Filter.elementAll filters, element.Writable
  | [], _ => by simp [Filter.elementAll]
  | filter :: rest, h => by
    simp only [Filter.conditionsWithinAll, List.mem_append] at h
    have hfirst := Filter.writable_element filter fun c hc => h c (Or.inl hc)
    have hrest := Filter.writable_elementAll rest fun c hc => h c (Or.inr hc)
    exact List.forall_mem_cons.mpr ⟨hfirst, hrest⟩

end

theorem bodyElements_writable {columns : ColumnSet} {orders : List OrderBy} {filter : Filter}
    (hcolumns : columns.Expressible) (horders : ∀ order ∈ orders, order.Expressible)
    (hfilter : ∀ condition ∈ filter.conditionsWithin, condition.Expressible) :
    ∀ element ∈ bodyElements columns orders filter, element.Writable := by
  intro element helement
  simp only [bodyElements, List.mem_append] at helement
  rcases helement with (helement | helement) | helement
  · cases columns with
    | all =>
      rw [List.mem_singleton.mp helement]
      exact ⟨by decide, by simp, List.nodup_nil, rfl, trivial⟩
    | none => contradiction
    | columns listed =>
      obtain ⟨column, hcolumn, rfl⟩ := List.mem_map.mp helement
      exact (hcolumns.listed column hcolumn).writable
  · obtain ⟨order, horder, rfl⟩ := List.mem_map.mp helement
    exact (horders order horder).writable
  · unfold Filter.elements at helement
    split at helement
    · contradiction
    · rw [List.mem_singleton.mp helement]
      exact Filter.writable_element filter hfilter

mutual

theorem Link.writable_element : (link : Link) →
    (∀ inner ∈ link.within, inner.Expressible false) → link.element.Writable
  | ⟨source, entity, target, kind, alias?, columns, filter, orders, links⟩, h => by
    rw [Link.within] at h
    have hown := h _ List.mem_cons_self
    have hlinks := Link.writable_elementAll links fun inner hinner =>
      h inner (List.mem_cons_of_mem _ hinner)
    have halias : ∀ name ∈ alias?, isAttributeText name = true := by
      obtain ⟨aliasName, hsome, hvalid⟩ := hown.named
      intro name hname
      obtain rfl := Option.some.inj (hsome.symm.trans hname)
      exact isAttributeText_of_isValid hvalid
    have hkind : ∀ word ∈ (if kind = .inner then none else some kind.keyword),
        isAttributeText word = true := by
      intro word hword
      split at hword
      · contradiction
      · rw [← Option.some.inj hword]
        exact kind.isAttributeText_keyword
    have htriple : Fits (["name"] ++ ["from"] ++ ["to"])
        ([("name", entity)] ++ [("from", target)] ++ [("to", source)]) :=
      ((Fits.single hown.entity).append (.single hown.target)).append (.single hown.source)
    rw [Link.element, attributes_kind]
    apply Tag.writable_element _ ((htriple.append (.given halias)).append (.given hkind))
    · decide
    · decide
    · intro child hchild
      rcases List.mem_append.mp hchild with hchild | hchild
      · exact bodyElements_writable hown.columns hown.orders hown.conditions child hchild
      · exact hlinks child hchild

theorem Link.writable_elementAll : (links : List Link) →
    (∀ inner ∈ Link.withinAll links, inner.Expressible false) →
    ∀ element ∈ Link.elementAll links, element.Writable
  | [], _ => by simp [Link.elementAll]
  | link :: rest, h => by
    simp only [Link.withinAll, List.mem_append] at h
    have hfirst := Link.writable_element link fun inner hinner => h inner (Or.inl hinner)
    have hrest := Link.writable_elementAll rest fun inner hinner => h inner (Or.inr hinner)
    exact List.forall_mem_cons.mpr ⟨hfirst, hrest⟩

end

theorem Query.writable_element {query : Query} (h : query.ordinary.Expressible) :
    query.element.Writable := by
  have hflags : Fits _ (flagged "aggregate" query.aggregate ++ flagged "distinct" query.distinct ++
      given "top" (query.top?.map Text.natText) ++
      given "count" (query.paging.count?.map Text.natText) ++
      given "page" (query.paging.page?.map Text.natText) ++
      flagged "returntotalrecordcount" query.paging.totalCount) :=
    ((((((Fits.flagged _ _).append (.flagged _ _)).append
      (.keyword isAttributeText_natText)).append (.keyword isAttributeText_natText)).append
      (.keyword isAttributeText_natText)).append (.flagged _ _))
  apply Tag.writable_element _ hflags
  · decide
  · decide
  · intro child hchild
    rw [List.mem_singleton.mp hchild]
    apply Tag.writable_element _ (Fits.single h.entity)
    · decide
    · decide
    · intro element helement
      rcases List.mem_append.mp helement with helement | helement
      · exact bodyElements_writable h.columns h.orders h.conditions element helement
      · exact Link.writable_elementAll query.links h.links element helement

theorem Query.Expressible.writable {query : Query} (h : query.Expressible) :
    query.element.Writable :=
  Query.writable_element h.ordinary

end RecordQuery
