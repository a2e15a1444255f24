import RecordQuery.Proofs.Document.Reception
import RecordQuery.Proofs.Plan.Reassignment

namespace RecordQuery

open Markup (KeepsReturns isAllowed normalText normalValue normalText_eq_self_iff)

namespace Aliases

theorem normalValue_of_isValid_normalValue {name : String} (h : isValid (normalValue name) = true) :
    normalValue name = name :=
  Markup.normalValue_of_not_mem fun hmem => absurd (isNameChar_of_isValid h _ hmem) (by decide)

theorem reservable_normalValues_iff (names : List String) :
    ((names.map normalValue).Nodup ∧ ∀ name ∈ names.map normalValue, isValid name = true) ↔
      names.Nodup ∧ ∀ name ∈ names, isValid name = true := by
  by_cases hsame : ∀ name ∈ names, normalValue name = name
  · rw [(List.map_congr_left hsame).trans (List.map_id names)]
  · push Not at hsame
    obtain ⟨name, hname, hne⟩ := hsame
    apply iff_of_false
    · rintro ⟨-, hvalid⟩
      exact hne (normalValue_of_isValid_normalValue (hvalid _ (List.mem_map_of_mem hname)))
    · rintro ⟨-, hvalid⟩
      exact hne (Markup.normalValue_of_isAttributeText (isAttributeText_of_isValid (hvalid name hname)))

end Aliases

theorem Link.explicitAliasesAll_receivedAll (links : List Link) :
    explicitAliasesAll (receivedAll links) = (explicitAliasesAll links).map normalValue := by
  rw [explicitAliasesAll_eq, explicitAliasesAll_eq, withinAll_receivedAll, List.filterMap_map,
    List.map_filterMap]
  congr 1
  funext link
  cases link
  rfl

theorem Link.filter_received (link : Link) : link.received.filter = link.filter.received := by
  cases link
  rfl

/-- A condition with one text is found again with that text, as it is written and read. If the
condition has a keyword, the text is the same exactly if it keeps its carriage returns. -/
def Condition.ReturnsText (condition found : Condition) : Prop :=
  ∀ text, condition.values = [.text text] → condition.other? = none →
    found.values = [.text (normalText (condition.operator.written.2 text))] ∧
      (condition.operator.keyword?.isSome = true → found.operator = condition.operator ∧
        (found.values = [.text text] ↔ KeepsReturns text))

theorem Condition.returnsText_received (condition : Condition) :
    condition.ReturnsText condition.received := by
  intro text hvalues hother
  have hreceived : condition.received.values =
      [.text (normalText (condition.operator.written.2 text))] := by
    rw [received, hother, hvalues]
    rfl
  refine ⟨hreceived, fun hspelled => ?_⟩
  obtain ⟨keyword, hkeyword⟩ := Option.isSome_iff_exists.mp hspelled
  have hoperator : condition.operator.transcript = condition.operator := by
    unfold Operator.transcript
    split
    · rename_i heq
      rw [heq] at hkeyword
      contradiction
    · rfl
  refine ⟨hoperator, ?_⟩
  rw [hreceived, Operator.written_of_keyword? hkeyword, ← normalText_eq_self_iff]
  simp

namespace Query

variable {query : Query}

theorem filters_received (query : Query) :
    query.received.filters = query.filters.map Filter.received := by
  rw [filters, received, filters, List.map_cons, Link.withinAll_receivedAll, List.map_map,
    List.map_map]
  congr 2
  funext link
  exact link.filter_received

theorem filters_unordered (query : Query) : query.unordered.filters = query.filters := by
  have hlinks : (Link.withinAll query.unordered.links).map (·.filter) =
      (Link.withinAll query.links).map (·.filter) := by
    rw [unordered, revise, Link.withinAll_reviseAll, List.map_map]
    exact List.map_congr_left fun link _ => Link.filter_revise id _ link
  exact congrArg (query.criteria :: ·) hlinks

theorem conditions_received (query : Query) :
    query.received.conditions = query.conditions.map Condition.received := by
  rw [conditions, filters_received, conditions, List.map_flatMap, List.flatMap_map]
  congr 1
  funext filter
  exact filter.conditionsWithin_mapConditions Condition.received

theorem conditions_of_ofDocument (hbounded : query.IsBounded) {read : Query}
    (h : Query.ofDocument query.document = .ok read) :
    read.conditions = query.conditions.map Condition.received := by
  cases hallowed : query.document.toList.all isAllowed with
  | false =>
    rw [Query.ofDocument_of_not_allowed hallowed] at h
    contradiction
  | true =>
    rw [Query.ofDocument_eq hallowed hbounded] at h
    obtain ⟨links, hlinks, rfl⟩ := map_eq_ok_iff.mp h
    have hfilters : filters { query.received.unordered with links := links } =
        query.received.unordered.filters :=
      congrArg (query.received.criteria :: ·) (Aliases.filters_of_assign hlinks)
    rw [conditions, hfilters, filters_unordered, ← conditions, conditions_received]

theorem exists_ofDocument_iff (hbounded : query.IsBounded) :
    (∃ read, Query.ofDocument query.document = .ok read) ↔
      query.document.toList.all isAllowed = true ∧ (Link.explicitAliasesAll query.links).Nodup ∧
        ∀ name ∈ Link.explicitAliasesAll query.links, Aliases.isValid name = true := by
  have haliases : Link.explicitAliasesAll query.received.unordered.links =
      (Link.explicitAliasesAll query.links).map normalValue := by
    rw [unordered, revise, Link.explicitAliasesAll_reviseAll, received,
      Link.explicitAliasesAll_receivedAll]
  cases hallowed : query.document.toList.all isAllowed with
  | false => simp [Query.ofDocument_of_not_allowed hallowed]
  | true =>
    rw [← Aliases.reservable_normalValues_iff, ← haliases, ← Aliases.exists_assign_iff,
      Query.ofDocument_eq hallowed hbounded]
    simp only [true_and]
    cases (Aliases.empty.assign query.received.unordered.links).2 with
    | error fault => simp [Except.map]
    | ok links => simp [Except.map]

/-- A query is read from its document unless a character or an alias is refused, and whatever is
read has the conditions of the query in their places, each with its text as the reader keeps it. -/
theorem ofDocument_returns_texts (h : query.IsBounded) :
    ((∃ read, Query.ofDocument query.document = .ok read) ↔
      query.document.toList.all isAllowed = true ∧ (Link.explicitAliasesAll query.links).Nodup ∧
        ∀ name ∈ Link.explicitAliasesAll query.links, Aliases.isValid name = true) ∧
    ∀ read, Query.ofDocument query.document = .ok read →
      List.Forall₂ Condition.ReturnsText query.conditions read.conditions := by
  refine ⟨exists_ofDocument_iff h, fun read hread => ?_⟩
  rw [conditions_of_ofDocument h hread, List.forall₂_map_right_iff]
  exact List.forall₂_same.mpr fun condition _ => condition.returnsText_received

def accountsNamed (name job : String) : Query where
  entity := "account"
  columns := .columns []
  criteria := ⟨.and, [⟨"name", none, .compare .equal, [.text name], none, false⟩], []⟩
  orders := []
  paging := .whole
  distinct := false
  top? := none
  links := [⟨"accountid", "contact", "parent\tid", .inner, none, .all,
    ⟨.or, [], [⟨.and, [⟨"job", none, .text .contains false, [.text job], none, true⟩], []⟩]⟩, [], []⟩]
  aggregate := false

theorem toList_document (query : Query) : query.document.toList =
    query.element.chars fun name => (Tag.ofName? name).any Tag.isShort := by
  rw [document, Markup.Element.write, String.toList_ofList]

theorem isBounded_accountsNamed (name job : String) : (accountsNamed name job).IsBounded :=
  ⟨nofun, nofun, nofun⟩

theorem ofDocument_returns_texts_accounts :
    (accountsNamed "<one>\r&\ntwo>\r" "a\rb").IsBounded ∧
    ∃ read, Query.ofDocument (accountsNamed "<one>\r&\ntwo>\r" "a\rb").document = .ok read ∧
      read.conditions.map (·.values) =
        [[.text "<one>\r&\ntwo>\r"], [.text "%a\nb%"]] := by
  have hbounded := isBounded_accountsNamed "<one>\r&\ntwo>\r" "a\rb"
  obtain ⟨hiff, hfound⟩ := ofDocument_returns_texts hbounded
  obtain ⟨read, hread⟩ := hiff.mpr
    ⟨by rw [toList_document]; decide +kernel, by decide, by decide⟩
  refine ⟨hbounded, read, hread, ?_⟩
  obtain ⟨first, others, hfirst, hothers, hconditions⟩ :=
    List.forall₂_cons_left_iff.mp (hfound read hread)
  obtain ⟨second, rest, hsecond, hrest, rfl⟩ := List.forall₂_cons_left_iff.mp hothers
  obtain rfl := List.forall₂_nil_left_iff.mp hrest
  rw [hconditions, List.map_cons, List.map_singleton, (hfirst _ rfl rfl).1, (hsecond _ rfl rfl).1]
  rfl

theorem exists_text_not_returned : ∃ read,
    Query.ofDocument (accountsNamed "one\rtwo" "").document = .ok read ∧
      (accountsNamed "one\rtwo" "").conditions.head?.map (·.values) = some [.text "one\rtwo"] ∧
      read.conditions.head?.map (·.values) = some [.text "one\ntwo"] := by
  have hbounded := isBounded_accountsNamed "one\rtwo" ""
  obtain ⟨read, hread⟩ := (exists_ofDocument_iff hbounded).mpr
    ⟨by rw [toList_document]; decide +kernel, by decide, by decide⟩
  refine ⟨read, hread, rfl, ?_⟩
  rw [conditions_of_ofDocument hbounded hread]
  rfl

end Query

end RecordQuery
