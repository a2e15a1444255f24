import Mathlib.Data.List.Duplicate
import Mathlib.Logic.Relation
import RecordQuery.Proofs.Document.Derivations

/-!
Why a document that follows the grammar may still not be read: flags and numbers that are none,
orders that name no attribute, and aliases that links cannot have. Nothing else stops the reading.
-/

namespace RecordQuery

open Markup (Element)
open Markup.Element

namespace Markup.Element

variable {element root body : Element} {name : String} {fault : Error} {aggregate : Bool}

def IsFlag (word : String) : Prop :=
  Text.lowercaseASCII (Text.trim word) ∈ ["true", "1", "false", "0"]

def IsCount (numeral : String) : Prop :=
  ∃ n, Text.readUnsigned? (Text.trim numeral).toList = some n ∧ n < limit64

def FlagRefusal (element : Element) (name : String) (fault : Error) : Prop :=
  ∃ word, element.attribute? name = some word ∧ ¬ IsFlag word ∧
    fault = .invalid (.notAFlag element.name name word)

def CountRefusal (element : Element) (name : String) (fault : Error) : Prop :=
  ∃ numeral, element.attribute? name = some numeral ∧ ¬ IsCount numeral ∧
    fault = .invalid (.notACount element.name name numeral)

def Linked (entity body : Element) : Prop :=
  Relation.ReflTransGen (fun body link => link ∈ body.tagged .link) entity body

/-- Why what is inside of an entity or of a link is not read. Listed columns are passed over beside
all columns, and orders in aggregate queries. -/
inductive BodyRefusal (aggregate : Bool) (body : Element) : Error → Prop where
  | column {column : Element} {name : String} {fault : Error}
      (listed : column ∈ body.tagged .column) (sought : body.has .allColumns = false)
      (read : name ∈ ["groupby", "distinct"]) (wrong : column.FlagRefusal name fault) :
      BodyRefusal aggregate body fault
  | order {order : Element} (plain : aggregate = false) (ordered : order ∈ body.tagged .order)
      (missing : order.attribute? "attribute" = none) :
      BodyRefusal aggregate body (.invalid (.missingAttribute order.name "attribute"))
  | descending {order : Element} {fault : Error} (plain : aggregate = false)
      (ordered : order ∈ body.tagged .order) (wrong : order.FlagRefusal "descending" fault) :
      BodyRefusal aggregate body fault

def linkAliases : List Element → List String
  | [] => []
  | ⟨name, attributes, children, _⟩ :: rest =>
    (if name = Tag.link.name then (attributes.lookup "alias").toList ++ linkAliases children
      else []) ++ linkAliases rest

inductive AliasRefusal (names : List String) : Error → Prop where
  | invalid {name : String} (given : name ∈ names) (wrong : Aliases.isValid name = false) :
      AliasRefusal names (.name (.invalidAlias name))
  | repeated {name : String} (given : names.Duplicate name) :
      AliasRefusal names (.name (.repeatedAlias name))

inductive Refusal (root : Element) : Error → Prop where
  | flag {name : String} {fault : Error}
      (read : name ∈ ["aggregate", "distinct", "returntotalrecordcount"])
      (wrong : root.FlagRefusal name fault) : root.Refusal fault
  | count {name : String} {fault : Error} (read : name ∈ ["top", "count", "page"])
      (wrong : root.CountRefusal name fault) : root.Refusal fault
  | body {entity body : Element} {aggregate : Bool} {fault : Error}
      (inside : entity ∈ root.tagged .entity) (linked : entity.Linked body)
      (kind : root.flag "aggregate" = .ok aggregate) (wrong : body.BodyRefusal aggregate fault) :
      root.Refusal fault
  | aliases {entity : Element} {fault : Error} (inside : entity ∈ root.tagged .entity)
      (wrong : AliasRefusal (linkAliases entity.children) fault) : root.Refusal fault

theorem flag_failsFor (element : Element) (name : String) :
    FailsFor (element.flag name) (element.FlagRefusal name) := by
  cases hattribute : element.attribute? name with
  | none =>
    have hread : element.flag name = .ok false := by rw [flag, hattribute]
    refine (FailsFor.of_ok ⟨_, hread⟩).congr fun fault => ?_
    simp [FlagRefusal, hattribute]
  | some word =>
    have hread : element.flag name =
        if Text.lowercaseASCII (Text.trim word) = "true" ∨
            Text.lowercaseASCII (Text.trim word) = "1" then .ok true
        else if Text.lowercaseASCII (Text.trim word) = "false" ∨
            Text.lowercaseASCII (Text.trim word) = "0" then .ok false
        else .error (.invalid (.notAFlag element.name name word)) := by
      rw [flag, hattribute]
    generalize hlowered : Text.lowercaseASCII (Text.trim word) = lowered at hread
    have hflag : IsFlag word ↔ (lowered = "true" ∨ lowered = "1") ∨
        (lowered = "false" ∨ lowered = "0") := by
      simp only [IsFlag, hlowered, List.mem_cons, List.not_mem_nil, or_false, or_assoc]
    by_cases hyes : lowered = "true" ∨ lowered = "1"
    · rw [if_pos hyes] at hread
      refine (FailsFor.of_ok ⟨_, hread⟩).congr fun fault => ?_
      simp [FlagRefusal, hattribute, hflag.mpr (.inl hyes)]
    · by_cases hno : lowered = "false" ∨ lowered = "0"
      · rw [if_neg hyes, if_pos hno] at hread
        refine (FailsFor.of_ok ⟨_, hread⟩).congr fun fault => ?_
        simp [FlagRefusal, hattribute, hflag.mpr (.inr hno)]
      · rw [if_neg hyes, if_neg hno] at hread
        exact .of_error hread ⟨word, hattribute, fun h => (hflag.mp h).elim hyes hno, rfl⟩

theorem count?_failsFor (element : Element) (name : String) :
    FailsFor (element.count? name) (element.CountRefusal name) := by
  cases hattribute : element.attribute? name with
  | none =>
    have hread : element.count? name = .ok none := by rw [count?, hattribute]
    refine (FailsFor.of_ok ⟨_, hread⟩).congr fun fault => ?_
    simp [CountRefusal, hattribute]
  | some numeral =>
    by_cases hcount : IsCount numeral
    · obtain ⟨n, hn, hlt⟩ := hcount
      have hread : element.count? name = .ok (some n) := by
        simp only [count?, hattribute, hn, if_pos hlt]
      refine (FailsFor.of_ok ⟨_, hread⟩).congr fun fault => ?_
      have hcount : IsCount numeral := ⟨n, hn, hlt⟩
      simp [CountRefusal, hattribute, hcount]
    · have hread : element.count? name =
          .error (.invalid (.notACount element.name name numeral)) := by
        simp only [count?, hattribute]
        cases hn : Text.readUnsigned? (Text.trim numeral).toList with
        | none => rfl
        | some n => exact if_neg fun hlt => hcount ⟨n, hn, hlt⟩
      exact .of_error hread ⟨numeral, hattribute, hcount, rfl⟩

theorem column_failsFor (h : Tag.column.Derives element) : FailsFor element.column fun fault =>
    ∃ name ∈ ["groupby", "distinct"], element.FlagRefusal name fault := by
  cases h with
  | column _ hname haggregate hgrouping =>
    unfold column
    refine ((FailsFor.of_ok (required_eq_ok_iff.mpr hname)).bind fun _ _ =>
      (flag_failsFor element "groupby").bind fun _ _ =>
      (flag_failsFor element "distinct").bind fun _ _ =>
      (FailsFor.of_ok (keyword?_eq_ok_iff.mpr haggregate)).bind fun _ _ =>
      (FailsFor.of_ok (keyword?_eq_ok_iff.mpr hgrouping)).bind fun _ _ =>
      FailsFor.of_ok ⟨_, rfl⟩).congr fun fault => ?_
    simp

theorem required_failsFor (element : Element) (name : String) : FailsFor (element.required name)
    fun fault => element.attribute? name = none ∧
      fault = .invalid (.missingAttribute element.name name) := by
  cases hattribute : element.attribute? name with
  | none =>
    have hread : element.required name =
        .error (.invalid (.missingAttribute element.name name)) := by rw [required, hattribute]
    exact .of_error hread ⟨rfl, rfl⟩
  | some text =>
    have hread : element.required name = .ok text := by rw [required, hattribute]
    exact (FailsFor.of_ok ⟨_, hread⟩).congr fun fault => by simp

theorem order_failsFor (element : Element) : FailsFor element.order fun fault =>
    (element.attribute? "attribute" = none ∧
      fault = .invalid (.missingAttribute element.name "attribute")) ∨
    element.FlagRefusal "descending" fault := by
  unfold order
  refine ((required_failsFor element "attribute").bind fun _ _ =>
    (flag_failsFor element "descending").bind fun _ _ =>
    FailsFor.of_ok ⟨_, rfl⟩).congr fun fault => ?_
  simp

theorem mem_tagged {tag : Tag} {inner : Element} : inner ∈ element.tagged tag ↔
    inner ∈ element.children ∧ inner.name = tag.name := by
  rw [tagged, List.mem_filter, beq_iff_eq]

theorem condition_failsFor (h : Tag.condition.Derives element) :
    FailsFor element.condition fun _ => False := by
  cases h with
  | condition _ hcolumn hoperator hknown =>
    unfold condition
    refine ((FailsFor.of_ok (operator_eq_ok_iff.mpr ⟨hoperator, hknown⟩)).bind fun _ _ =>
      (FailsFor.of_ok (required_eq_ok_iff.mpr hcolumn)).bind fun _ _ =>
      FailsFor.of_ok ⟨_, rfl⟩).congr fun fault => ?_
    simp

mutual

theorem filter_failsFor : (element : Element) → Tag.filter.Derives element →
    FailsFor element.filter fun _ => False
  | ⟨name, attributes, children, text?⟩, h => by
    cases h with
    | filter _ hconnective hinside =>
      rw [filter]
      refine ((FailsFor.of_ok (keyword?_eq_ok_iff.mpr hconnective)).bind fun _ _ =>
        (filterParts_failsFor children hinside).bind fun _ _ =>
        FailsFor.of_ok ⟨_, rfl⟩).congr fun fault => ?_
      simp

theorem filterParts_failsFor {tags : List Tag} : (elements : List Element) →
    Tag.DerivesAll tags elements → FailsFor (filterParts elements) fun _ => False
  | [], _ => FailsFor.of_ok ⟨_, by rw [filterParts]⟩
  | ⟨name, attributes, children, text?⟩ :: rest, h => by
    have hrest : FailsFor (filterParts rest) fun _ => False := by
      obtain _ | ⟨_, _, hothers⟩ := h
      exact filterParts_failsFor rest hothers
    rw [filterParts]
    by_cases hcondition : name = Tag.condition.name
    · rw [if_pos hcondition]
      refine ((condition_failsFor (h.of_name List.mem_cons_self hcondition)).bind fun _ _ =>
        hrest.bind fun _ _ => FailsFor.of_ok ⟨_, rfl⟩).congr fun fault => ?_
      simp
    · rw [if_neg hcondition]
      by_cases hfilter : name = Tag.filter.name
      · rw [if_pos hfilter]
        refine ((filter_failsFor _ (h.of_name List.mem_cons_self hfilter)).bind fun _ _ =>
          hrest.bind fun _ _ => FailsFor.of_ok ⟨_, rfl⟩).congr fun fault => ?_
        simp
      · rw [if_neg hfilter]
        exact hrest

end

section Body

variable {tags : List Tag} (h : Tag.DerivesAll tags body.children)

include h

theorem columns_failsFor : FailsFor body.columns fun fault => body.has .allColumns = false ∧
    ∃ column ∈ body.tagged .column, ∃ name ∈ ["groupby", "distinct"],
      column.FlagRefusal name fault := by
  unfold columns
  cases hall : body.has .allColumns with
  | true => exact (FailsFor.of_ok ⟨_, rfl⟩).congr fun fault => by simp
  | false =>
    have hlisted : ∀ column ∈ body.tagged .column, Tag.column.Derives column := by
      intro column hcolumn
      obtain ⟨hmem, hname⟩ := mem_tagged.mp hcolumn
      exact h.of_name hmem hname
    refine ((FailsFor.mapM fun column hcolumn => column_failsFor (hlisted column hcolumn)).bind
      fun found _ => FailsFor.of_ok ?_).congr fun fault => ?_
    · cases found <;> exact ⟨_, rfl⟩
    · simp

theorem criteria_failsFor : FailsFor body.criteria fun _ => False := by
  have hfilters : ∀ filter ∈ body.tagged .filter, FailsFor filter.filter fun _ => False := by
    intro filter hfilter
    obtain ⟨hmem, hname⟩ := mem_tagged.mp hfilter
    exact filter_failsFor filter (h.of_name hmem hname)
  unfold criteria
  refine ((FailsFor.mapM hfilters).bind fun found _ => FailsFor.of_ok ?_).congr fun fault => ?_
  · match found with
    | [] => exact ⟨_, rfl⟩
    | [filter] => exact ⟨_, rfl⟩
    | first :: second :: rest => exact ⟨_, rfl⟩
  · simp

end Body

theorem orders_failsFor (body : Element) (aggregate : Bool) : FailsFor (body.orders aggregate)
    fun fault => aggregate = false ∧ ∃ order ∈ body.tagged .order,
      (order.attribute? "attribute" = none ∧
        fault = .invalid (.missingAttribute order.name "attribute")) ∨
      order.FlagRefusal "descending" fault := by
  unfold orders
  cases aggregate with
  | true => exact (FailsFor.of_ok ⟨_, rfl⟩).congr fun fault => by simp
  | false => exact (FailsFor.mapM fun order _ => order_failsFor order).congr fun fault => by simp

theorem bodyRefusal_iff : BodyRefusal aggregate body fault ↔
    (body.has .allColumns = false ∧ ∃ column ∈ body.tagged .column,
      ∃ name ∈ ["groupby", "distinct"], column.FlagRefusal name fault) ∨
    (aggregate = false ∧ ∃ order ∈ body.tagged .order,
      (order.attribute? "attribute" = none ∧
        fault = .invalid (.missingAttribute order.name "attribute")) ∨
      order.FlagRefusal "descending" fault) := by
  constructor
  · intro h
    cases h with
    | column listed sought read wrong => exact .inl ⟨sought, _, listed, _, read, wrong⟩
    | order plain ordered missing => exact .inr ⟨plain, _, ordered, .inl ⟨missing, rfl⟩⟩
    | descending plain ordered wrong => exact .inr ⟨plain, _, ordered, .inr wrong⟩
  · rintro (⟨sought, _, listed, _, read, wrong⟩ | ⟨plain, _, ordered, ⟨missing, rfl⟩ | wrong⟩)
    · exact .column listed sought read wrong
    · exact .order plain ordered missing
    · exact .descending plain ordered wrong

theorem exists_linked_iff {reason : Element → Prop} : (∃ body, element.Linked body ∧ reason body) ↔
    reason element ∨ ∃ link ∈ element.children, link.name = Tag.link.name ∧
      ∃ body, link.Linked body ∧ reason body := by
  constructor
  · rintro ⟨body, hlinked, hreason⟩
    rcases Relation.ReflTransGen.cases_head_iff.mp hlinked with rfl | ⟨link, hlink, hbelow⟩
    · exact .inl hreason
    · obtain ⟨hmem, hname⟩ := mem_tagged.mp hlink
      exact .inr ⟨link, hmem, hname, body, hbelow, hreason⟩
  · rintro (hreason | ⟨link, hmem, hname, body, hbelow, hreason⟩)
    · exact ⟨element, .refl, hreason⟩
    · exact ⟨body, .head (mem_tagged.mpr ⟨hmem, hname⟩) hbelow, hreason⟩

mutual

theorem link_failsFor (aggregate : Bool) : (element : Element) → Tag.link.Derives element →
    FailsFor (element.link aggregate) fun fault =>
      ∃ body, element.Linked body ∧ body.BodyRefusal aggregate fault
  | ⟨name, attributes, children, text?⟩, h => by
    cases h with
    | link _ hname htarget hsource hkind hinside =>
      rw [link]
      refine ((FailsFor.of_ok (required_eq_ok_iff.mpr hsource)).bind fun _ _ =>
        (FailsFor.of_ok (required_eq_ok_iff.mpr hname)).bind fun _ _ =>
        (FailsFor.of_ok (required_eq_ok_iff.mpr htarget)).bind fun _ _ =>
        (FailsFor.of_ok (keyword?_eq_ok_iff.mpr hkind)).bind fun _ _ =>
        (columns_failsFor hinside).bind fun _ _ =>
        (criteria_failsFor hinside).bind fun _ _ =>
        (orders_failsFor _ aggregate).bind fun _ _ =>
        (linksAmong_failsFor aggregate children hinside).bind fun _ _ =>
        FailsFor.of_ok ⟨_, rfl⟩).congr fun fault => ?_
      rw [exists_linked_iff, bodyRefusal_iff]
      simp only [false_or, or_false, or_assoc]

theorem linksAmong_failsFor (aggregate : Bool) {tags : List Tag} : (elements : List Element) →
    Tag.DerivesAll tags elements →
    FailsFor (linksAmong aggregate elements) fun fault =>
      ∃ link ∈ elements, link.name = Tag.link.name ∧
        ∃ body, link.Linked body ∧ body.BodyRefusal aggregate fault
  | [], _ => (FailsFor.of_ok ⟨_, by rw [linksAmong]⟩).congr fun fault => by simp
  | ⟨name, attributes, children, text?⟩ :: rest, h => by
    have hrest : FailsFor (linksAmong aggregate rest) fun fault =>
        ∃ link ∈ rest, link.name = Tag.link.name ∧
          ∃ body, link.Linked body ∧ body.BodyRefusal aggregate fault := by
      obtain _ | ⟨_, _, hothers⟩ := h
      exact linksAmong_failsFor aggregate rest hothers
    rw [linksAmong]
    by_cases hlink : name = Tag.link.name
    · rw [if_pos hlink]
      refine ((link_failsFor aggregate _ (h.of_name List.mem_cons_self hlink)).bind fun _ _ =>
        hrest.bind fun _ _ => FailsFor.of_ok ⟨_, rfl⟩).congr fun fault => ?_
      simp [hlink]
    · rw [if_neg hlink]
      exact hrest.congr fun fault => by simp [hlink]

end

mutual

theorem explicitAliases_link {aggregate : Bool} : (element : Element) → {link : Link} →
    element.link aggregate = .ok link →
    link.explicitAliases = (element.attribute? "alias").toList ++ linkAliases element.children
  | ⟨name, attributes, children, text?⟩, link, h => by
    rw [Element.link] at h
    obtain ⟨_, -, h⟩ := bind_eq_ok_iff.mp h
    obtain ⟨_, -, h⟩ := bind_eq_ok_iff.mp h
    obtain ⟨_, -, h⟩ := bind_eq_ok_iff.mp h
    obtain ⟨_, -, h⟩ := bind_eq_ok_iff.mp h
    obtain ⟨_, -, h⟩ := bind_eq_ok_iff.mp h
    obtain ⟨_, -, h⟩ := bind_eq_ok_iff.mp h
    obtain ⟨_, -, h⟩ := bind_eq_ok_iff.mp h
    obtain ⟨links, hlinks, h⟩ := bind_eq_ok_iff.mp h
    obtain rfl := Except.ok.inj h
    rw [Link.explicitAliases, explicitAliasesAll_linksAmong children hlinks]

theorem explicitAliasesAll_linksAmong {aggregate : Bool} : (elements : List Element) →
    {links : List Link} → linksAmong aggregate elements = .ok links →
    Link.explicitAliasesAll links = linkAliases elements
  | [], links, h => by
    rw [linksAmong] at h
    obtain rfl := Except.ok.inj h
    rw [Link.explicitAliasesAll, linkAliases]
  | ⟨name, attributes, children, text?⟩ :: rest, links, h => by
    rw [linksAmong] at h
    rw [linkAliases]
    by_cases hlink : name = Tag.link.name
    · rw [if_pos hlink] at h ⊢
      obtain ⟨first, hfirst, h⟩ := bind_eq_ok_iff.mp h
      obtain ⟨others, hothers, h⟩ := bind_eq_ok_iff.mp h
      obtain rfl := Except.ok.inj h
      rw [Link.explicitAliasesAll, explicitAliases_link _ hfirst,
        explicitAliasesAll_linksAmong rest hothers]
      rfl
    · rw [if_neg hlink] at h ⊢
      exact explicitAliasesAll_linksAmong rest h

end

end Markup.Element

namespace Aliases

theorem reserveAll_failsFor (names : List String) (aliases : Aliases) :
    FailsFor (aliases.reserveAll names).2 fun fault =>
      (∃ name ∈ names, isValid name = false ∧ fault = .name (.invalidAlias name)) ∨
      ∃ name, (names.Duplicate name ∨ (name ∈ names ∧ name ∈ aliases.taken)) ∧
        fault = .name (.repeatedAlias name) := by
  induction names generalizing aliases with
  | nil => exact (FailsFor.of_ok ⟨_, rfl⟩).congr fun fault => by simp
  | cons name rest ih =>
    by_cases hvalid : isValid name = true
    · by_cases htaken : name ∈ aliases.taken
      · have hreserve : aliases.reserve name = .error (.name (.repeatedAlias name)) := by
          simp [reserve, hvalid, htaken]
        rw [reserveAll, hreserve]
        exact .inr ⟨name, .inr ⟨List.mem_cons_self, htaken⟩, rfl⟩
      · have hreserve : aliases.reserve name = .ok ⟨name :: aliases.taken⟩ := by
          simp [reserve, hvalid, htaken]
        rw [reserveAll, hreserve]
        refine (ih ⟨name :: aliases.taken⟩).congr fun fault => or_congr ?_ ?_
        · simp [hvalid]
        · refine exists_congr fun other => and_congr_left fun _ => ?_
          rw [List.duplicate_cons_iff, List.mem_cons, List.mem_cons]
          by_cases hother : other = name
          · subst hother
            simp only [htaken, true_and, or_false, and_true, and_false, true_or]
            exact or_comm
          · simp only [hother, Ne.symm hother, false_and, false_or]
    · have hreserve : aliases.reserve name = .error (.name (.invalidAlias name)) := by
        simp [reserve, hvalid]
      rw [reserveAll, hreserve]
      exact .inl ⟨name, List.mem_cons_self, Bool.not_eq_true _ ▸ hvalid, rfl⟩

theorem assign_failsFor (links : List Link) :
    FailsFor (empty.assign links).2 (AliasRefusal (Link.explicitAliasesAll links)) := by
  have hreserve : FailsFor (empty.reserveAll (Link.explicitAliasesAll links)).2
      (AliasRefusal (Link.explicitAliasesAll links)) := by
    refine (reserveAll_failsFor _ empty).congr fun fault => ?_
    simp only [empty, List.not_mem_nil, and_false, or_false]
    constructor
    · rintro (⟨name, given, wrong, rfl⟩ | ⟨name, given, rfl⟩)
      · exact .invalid given wrong
      · exact .repeated given
    · rintro (⟨given, wrong⟩ | ⟨given⟩)
      · exact .inl ⟨_, given, wrong, rfl⟩
      · exact .inr ⟨_, given, rfl⟩
  unfold assign
  generalize empty.reserveAll (Link.explicitAliasesAll links) = reserved at hreserve ⊢
  obtain ⟨taken, answer⟩ := reserved
  cases answer with
  | ok => exact hreserve
  | error fault => exact hreserve

end Aliases

namespace Markup.Element

variable {root entity : Element} {name : String} {fault : Error} {aggregate : Bool}

theorem refusal_iff (hentity : root.tagged .entity = [entity])
    (haggregate : root.flag "aggregate" = .ok aggregate) : root.Refusal fault ↔
    (∃ name ∈ ["aggregate", "distinct", "returntotalrecordcount"], root.FlagRefusal name fault) ∨
    (∃ name ∈ ["top", "count", "page"], root.CountRefusal name fault) ∨
    (∃ body, entity.Linked body ∧ body.BodyRefusal aggregate fault) ∨
    AliasRefusal (linkAliases entity.children) fault := by
  have hsole {other : Element} (hother : other ∈ root.tagged .entity) : other = entity := by
    rw [hentity] at hother
    exact List.mem_singleton.mp hother
  have hinside : entity ∈ root.tagged .entity := by
    rw [hentity]
    exact List.mem_cons_self
  constructor
  · intro h
    cases h with
    | flag read wrong => exact .inl ⟨_, read, wrong⟩
    | count read wrong => exact .inr (.inl ⟨_, read, wrong⟩)
    | body inside linked kind wrong =>
      obtain rfl := hsole inside
      obtain rfl := Except.ok.inj (kind.symm.trans haggregate)
      exact .inr (.inr (.inl ⟨_, linked, wrong⟩))
    | aliases inside wrong =>
      obtain rfl := hsole inside
      exact .inr (.inr (.inr wrong))
  · rintro (⟨_, read, wrong⟩ | ⟨_, read, wrong⟩ | ⟨_, linked, wrong⟩ | wrong)
    · exact .flag read wrong
    · exact .count read wrong
    · exact .body hinside linked haggregate wrong
    · exact .aliases hinside wrong

theorem query_failsFor (h : Tag.fetch.Derives root) : FailsFor root.query root.Refusal := by
  cases h with
  | @fetch _ entity _ sole derived =>
    have hentity : root.tagged .entity = [entity] := by
      rw [tagged, sole]
      simp [derived.name_eq]
    have hname : entity.Gives "name" := by
      cases derived with
      | entity _ name => exact name
    have hinside : Tag.DerivesAll Tag.entity.contents entity.children := derived.parts.2
    have hread := flag_failsFor root "aggregate"
    unfold query
    rw [hentity]
    cases haggregate : root.flag "aggregate" with
    | error fault =>
      rw [haggregate] at hread
      exact .flag List.mem_cons_self hread
    | ok aggregate =>
      rw [haggregate] at hread
      have hassign (links : List Link) (hlinks : linksAmong aggregate entity.children = .ok links) :
          FailsFor (Aliases.empty.assign links).2 (AliasRefusal (linkAliases entity.children)) :=
        explicitAliasesAll_linksAmong _ hlinks ▸ Aliases.assign_failsFor links
      dsimp only
      rw [ok_bind]
      refine ((FailsFor.of_ok (required_eq_ok_iff.mpr hname)).bind fun _ _ =>
        (flag_failsFor root "distinct").bind fun _ _ =>
        (count?_failsFor root "top").bind fun _ _ =>
        (count?_failsFor root "count").bind fun _ _ =>
        (count?_failsFor root "page").bind fun _ _ =>
        (flag_failsFor root "returntotalrecordcount").bind fun _ _ =>
        (columns_failsFor hinside).bind fun _ _ =>
        (criteria_failsFor hinside).bind fun _ _ =>
        (orders_failsFor entity aggregate).bind fun _ _ =>
        (linksAmong_failsFor aggregate entity.children hinside).bind fun links hlinks =>
        (hassign links hlinks).bind fun _ _ => FailsFor.of_ok ⟨_, rfl⟩).congr fun fault => ?_
      have hflag : ¬ root.FlagRefusal "aggregate" fault := hread fault
      rw [refusal_iff hentity haggregate, exists_linked_iff, bodyRefusal_iff]
      simp only [List.mem_cons, List.not_mem_nil, or_false, exists_eq_or_imp, exists_eq_left,
        hflag, false_or]
      grind

theorem FlagRefusal.ne_operator (h : root.FlagRefusal name fault)
    (operatorFault : OperatorFault) : fault ≠ .operator operatorFault := by
  obtain ⟨word, -, -, rfl⟩ := h
  nofun

theorem Refusal.ne_operator (h : root.Refusal fault) (operatorFault : OperatorFault) :
    fault ≠ .operator operatorFault := by
  cases h with
  | flag _ wrong => exact wrong.ne_operator operatorFault
  | count _ wrong =>
    obtain ⟨numeral, -, -, rfl⟩ := wrong
    nofun
  | body _ _ _ wrong =>
    cases wrong with
    | column _ _ _ wrong => exact wrong.ne_operator operatorFault
    | order => nofun
    | descending _ _ wrong => exact wrong.ne_operator operatorFault
  | aliases _ wrong => cases wrong <;> nofun

/-- The check accepts what the rules derive, and the reading trusts it: where the tree is accepted
only the reasons above are left. -/
theorem checkDocument_trusted (root : Element) :
    (root.checkDocument = .ok () ↔ Tag.fetch.Derives root) ∧
    (root.checkDocument = .ok () →
      (∀ inner, root.Contains inner → ∃ tag : Tag, tag.Derives inner) ∧
      (∀ fault, root.query = .error fault →
        root.Refusal fault ∧ ∀ operatorFault, fault ≠ .operator operatorFault) ∧
      ((∃ query, root.query = .ok query) ↔ ∀ fault, ¬ root.Refusal fault)) := by
  refine ⟨checkDocument_eq_ok_iff, fun hcheck => ?_⟩
  have hderives := checkDocument_eq_ok_iff.mp hcheck
  have hreads := query_failsFor hderives
  refine ⟨fun inner => hderives.within, ?_, ?_⟩
  · intro fault hfault
    rw [hfault] at hreads
    exact ⟨hreads, Refusal.ne_operator hreads⟩
  · cases hquery : root.query with
    | ok query =>
      rw [hquery] at hreads
      exact ⟨fun _ => hreads, fun _ => ⟨query, rfl⟩⟩
    | error fault =>
      rw [hquery] at hreads
      exact ⟨nofun, fun h => absurd hreads (h fault)⟩

def miscounted : Element :=
  ⟨"fetch", [("top", "few")], [⟨"entity", [("name", "account")], [], none⟩], none⟩

theorem refusal_miscounted : miscounted.checkDocument = .ok () ∧
    miscounted.query = .error (.invalid (.notACount "fetch" "top" "few")) ∧
    miscounted.Refusal (.invalid (.notACount "fetch" "top" "few")) := by
  have hcheck : miscounted.checkDocument = .ok () := by rfl
  have hquery : miscounted.query = .error (.invalid (.notACount "fetch" "top" "few")) := by rfl
  obtain ⟨-, hfaults, -⟩ := (checkDocument_trusted miscounted).2 hcheck
  exact ⟨hcheck, hquery, (hfaults _ hquery).1⟩

end Markup.Element

end RecordQuery
