import RecordQuery.Proofs.Document.Checks
import RecordQuery.Proofs.Document.Writable
import RecordQuery.Proofs.Query.Naming

namespace RecordQuery

open Markup (Element)
open Markup.Element

namespace Query

variable {query : Query}

def entityElement (query : Query) : Element :=
  Tag.entity.element [("name", query.entity)]
    (contentElements query.columns query.orders query.criteria query.links)

theorem element_settled (query : Query) : query.element.settled =
    Tag.fetch.element
      (flagged "aggregate" query.aggregate ++ flagged "distinct" query.distinct ++
        given "top" (query.top?.map Text.natText) ++
        given "count" (query.paging.count?.map Text.natText) ++
        given "page" (query.paging.page?.map Text.natText) ++
        flagged "returntotalrecordcount" query.paging.totalCount)
      [query.entityElement] := by
  rw [Query.element, settled_element, List.map_singleton, settled_element]
  rfl

theorem checkDocument_element (h : query.Legible) :
    query.element.settled.checkDocument = .ok () := by
  have hlinks := Link.accepts_elementAll query.links h.links
  have hcontents : Tag.entity.Accepts query.entityElement.children :=
    Tag.accepts_contentElements h.conditions hlinks
  have hentity : Tag.entity.checkElement query.entityElement = .ok () :=
    Tag.checkElement_eq_ok rfl hcontents
  rw [element_settled, Element.checkDocument]
  refine (if_pos rfl).trans (Tag.checkElement_eq_ok rfl ?_)
  intro element helement
  rw [List.mem_singleton.mp helement]
  exact ⟨Tag.entity, rfl, by decide, hentity⟩

theorem query_element_eq (h : query.Legible) : query.element.settled.query =
    (Aliases.empty.assign query.unordered.links).2.map fun links =>
      { query.unordered with links := links } := by
  rw [element_settled]
  generalize helement : Tag.fetch.element _ _ = element
  have hentity : element.tagged .entity = [query.entityElement] := by
    rw [← helement]
    rfl
  have haggregate : element.flag "aggregate" = .ok query.aggregate := by
    apply flag_eq_ok
    simp [← helement, List.lookup_append]
  have hdistinct : element.flag "distinct" = .ok query.distinct := by
    apply flag_eq_ok
    simp [← helement, List.lookup_append]
  have htop : element.count? "top" = .ok query.top? := by
    have hfits : ∀ n ∈ query.top?, n < limit64 := h.top
    apply count?_eq_ok _ hfits
    simp [← helement, List.lookup_append]
  have hcount : element.count? "count" = .ok query.paging.count? := by
    have hfits : ∀ n ∈ query.paging.count?, n < limit64 := h.count
    apply count?_eq_ok _ hfits
    simp [← helement, List.lookup_append]
  have hpage : element.count? "page" = .ok query.paging.page? := by
    have hfits : ∀ n ∈ query.paging.page?, n < limit64 := h.page
    apply count?_eq_ok _ hfits
    simp [← helement, List.lookup_append]
  have htotal : element.flag "returntotalrecordcount" = .ok query.paging.totalCount := by
    apply flag_eq_ok
    simp [← helement, List.lookup_append]
  have hname : query.entityElement.required "name" = .ok query.entity := rfl
  have hlinks := linksAmong_elementAll query.aggregate query.links h.links
  have hchildren : query.entityElement.children =
      contentElements query.columns query.orders query.criteria query.links := rfl
  simp only [Element.query, hentity, haggregate, hname, hdistinct, htop, hcount, hpage, htotal,
    columns_eq_ok hchildren h.nonempty, criteria_eq_ok hchildren h.conditions,
    orders_eq_ok hchildren query.aggregate, linksAmong_children hchildren, hlinks, ok_bind,
    pure_eq_ok, unordered, revise, id_eq]
  cases (Aliases.empty.assign (Link.reviseAll id (OrderBy.kept query.aggregate) query.links)).2 <;>
    rfl

theorem query_element (h : query.ordinary.Expressible) :
    query.element.settled.query = .ok query.unordered := by
  have hnamed : (Aliases.empty.assign query.unordered.links).2 = .ok query.unordered.links := by
    apply Aliases.assign_of_named
    · intro link hlink
      rw [unordered, revise, Link.withinAll_reviseAll] at hlink
      obtain ⟨written, hwritten, rfl⟩ := List.mem_map.mp hlink
      rw [Link.alias?_revise]
      exact (h.links written hwritten).named
    · rw [unordered, revise, Link.explicitAliasesAll_reviseAll]
      exact h.aliases
  rw [query_element_eq (legible_of_ordinary h), hnamed]
  rfl

theorem ofDocument_element (h : query.ordinary.Expressible) :
    Query.ofDocument query.document = .ok query.unordered := by
  have hread : Markup.Element.read query.document = .ok query.element.settled := by
    rw [Element.read, document, read?_write _ (writable_element h)]
  rw [Query.ofDocument, hread, ok_bind, checkDocument_element (legible_of_ordinary h), ok_bind,
    query_element h]

theorem Expressible.checkDocument (h : query.Expressible) :
    query.element.settled.checkDocument = .ok () :=
  checkDocument_element (legible_of_ordinary h.ordinary)

theorem Expressible.query_element (h : query.Expressible) :
    query.element.settled.query = .ok query := by
  have hlinks : Link.reviseAll id (OrderBy.kept query.aggregate) query.links = query.links :=
    Link.reviseAll_eq_self query.links fun link hlink =>
      ⟨rfl, OrderBy.kept_eq_self (h.links link hlink).unordered⟩
  have hself : query.unordered = query := by
    unfold Query.unordered Query.revise
    rw [OrderBy.kept_eq_self h.unordered, hlinks]
    rfl
  rw [Query.query_element h.ordinary, hself]

theorem ofDocument_document (h : query.Expressible) :
    Query.ofDocument query.document = .ok query := by
  have hread : Markup.Element.read query.document = .ok query.element.settled := by
    rw [Element.read, document, read?_write _ h.writable]
  rw [Query.ofDocument, hread, ok_bind, h.checkDocument, ok_bind, h.query_element]

def namedAccounts : Query where
  entity := "account"
  columns := .columns [⟨"name", some "n", none, false, none, false⟩]
  criteria := ⟨.or, [⟨"name", none, .compare .equal, [.text "<a> & \"b\"", .text ""], none, false⟩],
    [.all]⟩
  orders := [⟨"name", none, true⟩]
  paging := ⟨some 5, some 2, true⟩
  distinct := true
  top? := some 10
  links := [⟨"accountid", "contact", "parentid", .leftOuter, some "c", .all, .all, [],
    [⟨"contactid", "task", "ownerid", .inner, some "t", .none,
      ⟨.and, [⟨"due", none, .compare .less, [], some "c.born", false⟩], []⟩, [], []⟩]⟩]
  aggregate := false

theorem ofDocument_document_namedAccounts : namedAccounts.Expressible ∧
    Query.ofDocument namedAccounts.document = .ok namedAccounts := by
  have h : namedAccounts.Expressible := by
    constructor
    · decide
    · refine ⟨?_, by simp [namedAccounts]⟩
      intro column hcolumn
      obtain rfl := List.mem_singleton.mp hcolumn
      exact ⟨by decide, by decide⟩
    · intro condition hcondition
      obtain rfl := List.mem_singleton.mp hcondition
      refine ⟨by decide, by simp, by simp, by decide, ?_, by simp, rfl⟩
      intro value hvalue
      rcases List.mem_pair.mp hvalue with rfl | rfl
      · exact ⟨_, rfl, by decide⟩
      · exact ⟨_, rfl, by decide⟩
    · intro order horder
      obtain rfl := List.mem_singleton.mp horder
      exact ⟨by decide, by simp⟩
    · simp [namedAccounts]
    · intro link hlink
      rcases List.mem_pair.mp hlink with rfl | rfl
      · exact ⟨by decide, by decide, by decide, ⟨"c", rfl, by decide⟩, ⟨by simp [ColumnSet.explicit],
          by simp⟩, by simp [Filter.all, Filter.conditionsWithin, Filter.conditionsWithinAll],
          by simp, by simp⟩
      · refine ⟨by decide, by decide, by decide, ⟨"t", rfl, by decide⟩, ⟨by simp [ColumnSet.explicit],
          by simp⟩, ?_, by simp, by simp⟩
        intro condition hcondition
        obtain rfl := List.mem_singleton.mp hcondition
        exact ⟨by decide, by simp, by decide, by decide, by simp, by simp, rfl⟩
    · decide
    · decide
    · decide
    · decide
  exact ⟨h, ofDocument_document h⟩

end Query

end RecordQuery
