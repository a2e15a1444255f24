import RecordQuery.Proofs.Document.Checks

/-!
The grammar of query documents as rules, one for each kind of element, and the trees that follow
from them. The check goes through the tree in steps that each look at one element; what it lets
through is what the rules derive, at every depth.
-/

namespace RecordQuery

open Markup (Element)
open Markup.Element

namespace Markup.Element

def Gives (element : Element) (name : String) : Prop :=
  ∃ text, element.attribute? name = some text

def Recognises {α : Type} (element : Element) (name : String) (ofKeyword? : String → Option α) :
    Prop :=
  ∀ word, element.attribute? name = some word → ∃ meaning, ofKeyword? word = some meaning

inductive Contains (element : Element) : Element → Prop where
  | here : element.Contains element
  | child {inner child : Element} (outer : element.Contains inner)
      (inside : child ∈ inner.children) : element.Contains child

variable {element : Element} {name : String}

theorem required_eq_ok_iff : (∃ text, element.required name = .ok text) ↔ element.Gives name := by
  unfold required Gives
  cases element.attribute? name <;> simp

theorem keyword?_eq_ok_iff {α : Type} {ofKeyword? : String → Option α} {fault : String → Error} :
    (∃ meaning?, element.keyword? name ofKeyword? fault = .ok meaning?) ↔
      element.Recognises name ofKeyword? := by
  unfold keyword? Recognises
  cases element.attribute? name with
  | none => simp
  | some word => cases hword : ofKeyword? word <;> simp [hword]

theorem operator_eq_ok_iff : (∃ operator, element.operator = .ok operator) ↔
    element.Gives "operator" ∧ element.Recognises "operator" Operator.ofKeyword? := by
  unfold operator required Gives Recognises
  cases element.attribute? "operator" with
  | none => simp
  | some word => cases hword : Operator.ofKeyword? word <;> simp [hword]

end Markup.Element

namespace Tag

mutual

inductive Derives : Tag → Element → Prop where
  | fetch {element entity : Element} (named : element.name = "fetch")
      (sole : element.children = [entity]) (inside : Derives .entity entity) :
      Derives .fetch element
  | entity {element : Element} (named : element.name = "entity") (name : element.Gives "name")
      (inside : DerivesAll [.column, .allColumns, .noColumns, .order, .filter, .link]
        element.children) : Derives .entity element
  | link {element : Element} (named : element.name = "link-entity") (name : element.Gives "name")
      (target : element.Gives "from") (source : element.Gives "to")
      (kind : element.Recognises "link-type" JoinKind.ofKeyword?)
      (inside : DerivesAll [.column, .allColumns, .noColumns, .order, .filter, .link]
        element.children) : Derives .link element
  | column {element : Element} (named : element.name = "attribute") (name : element.Gives "name")
      (aggregate : element.Recognises "aggregate" AggregateFunction.ofKeyword?)
      (grouping : element.Recognises "dategrouping" DateGrouping.ofKeyword?)
      (empty : element.children = []) : Derives .column element
  | allColumns {element : Element} (named : element.name = "all-attributes")
      (empty : element.children = []) : Derives .allColumns element
  | noColumns {element : Element} (named : element.name = "no-attrs")
      (empty : element.children = []) : Derives .noColumns element
  | order {element : Element} (named : element.name = "order")
      (empty : element.children = []) : Derives .order element
  | filter {element : Element} (named : element.name = "filter")
      (connective : element.Recognises "type" Connective.ofKeyword?)
      (inside : DerivesAll [.condition, .filter] element.children) : Derives .filter element
  | condition {element : Element} (named : element.name = "condition")
      (column : element.Gives "attribute") (operator : element.Gives "operator")
      (known : element.Recognises "operator" Operator.ofKeyword?)
      (inside : DerivesAll [.value] element.children) : Derives .condition element
  | value {element : Element} (named : element.name = "value")
      (empty : element.children = []) : Derives .value element

inductive DerivesAll : List Tag → List Element → Prop where
  | nil {tags : List Tag} : DerivesAll tags []
  | cons {tags : List Tag} {tag : Tag} {element : Element} {rest : List Element}
      (among : tag ∈ tags) (first : Derives tag element) (others : DerivesAll tags rest) :
      DerivesAll tags (element :: rest)

end

variable {tag : Tag} {tags : List Tag} {element inner : Element} {elements : List Element}

theorem Derives.name_eq (h : tag.Derives element) : element.name = tag.name := by
  cases h <;> assumption

theorem name_injective {other : Tag} (h : tag.name = other.name) : tag = other := by
  rw [← Option.some_inj, ← ofName?_name tag, h, ofName?_name]

theorem DerivesAll.exists_of_mem (h : DerivesAll tags elements) (hinner : inner ∈ elements) :
    ∃ tag ∈ tags, tag.Derives inner := by
  induction elements with
  | nil => contradiction
  | cons element rest ih =>
    obtain _ | ⟨hamong, hfirst, hothers⟩ := h
    rcases List.mem_cons.mp hinner with rfl | hinner
    · exact ⟨_, hamong, hfirst⟩
    · exact ih hothers hinner

theorem DerivesAll.of_name (h : DerivesAll tags elements) (hinner : inner ∈ elements)
    (hname : inner.name = tag.name) : tag.Derives inner := by
  obtain ⟨other, -, hother⟩ := h.exists_of_mem hinner
  rwa [name_injective (hname.symm.trans hother.name_eq)]

theorem Derives.child (h : tag.Derives element) (hinner : inner ∈ element.children) :
    ∃ other : Tag, other.Derives inner := by
  cases h with
  | fetch _ hsole hinside =>
    rw [hsole, List.mem_singleton] at hinner
    exact ⟨.entity, hinner ▸ hinside⟩
  | entity _ _ hinside =>
    obtain ⟨other, -, hother⟩ := hinside.exists_of_mem hinner
    exact ⟨other, hother⟩
  | link _ _ _ _ _ hinside =>
    obtain ⟨other, -, hother⟩ := hinside.exists_of_mem hinner
    exact ⟨other, hother⟩
  | filter _ _ hinside =>
    obtain ⟨other, -, hother⟩ := hinside.exists_of_mem hinner
    exact ⟨other, hother⟩
  | condition _ _ _ _ hinside =>
    obtain ⟨other, -, hother⟩ := hinside.exists_of_mem hinner
    exact ⟨other, hother⟩
  | column _ _ _ _ hempty => simp [hempty] at hinner
  | allColumns _ hempty => simp [hempty] at hinner
  | noColumns _ hempty => simp [hempty] at hinner
  | order _ hempty => simp [hempty] at hinner
  | value _ hempty => simp [hempty] at hinner

theorem Derives.within (h : tag.Derives element) (hinner : element.Contains inner) :
    ∃ other : Tag, other.Derives inner := by
  induction hinner with
  | here => exact ⟨tag, h⟩
  | child _ hinside ih =>
    obtain ⟨_, hother⟩ := ih
    exact hother.child hinside

theorem checkContents_eq_ok_iff : tag.checkContents elements = .ok () ↔
    ∀ element ∈ elements, ∃ inner ∈ tag.contents, element.name = inner.name := by
  induction elements with
  | nil => simp [checkContents]
  | cons element rest ih =>
    rw [checkContents, List.forall_mem_cons, ← ih]
    cases hname : ofName? element.name with
    | none =>
      have hnot : ¬ ∃ inner ∈ tag.contents, element.name = inner.name := by
        rintro ⟨inner, -, heq⟩
        rw [heq, ofName?_name] at hname
        contradiction
      simp [hnot]
    | some inner =>
      have heq : element.name = inner.name := by
        have hfound := List.find?_some hname
        exact (beq_iff_eq.mp hfound).symm
      have hiff : (∃ other ∈ tag.contents, element.name = other.name) ↔ inner ∈ tag.contents := by
        constructor
        · rintro ⟨other, hother, hsame⟩
          rwa [name_injective (heq.symm.trans hsame)]
        · intro hinner
          exact ⟨inner, hinner, heq⟩
      rw [hiff]
      by_cases hinner : inner ∈ tag.contents <;> simp [hinner]

theorem DerivesAll.eq_nil (h : DerivesAll [] elements) : elements = [] := by
  cases h with
  | nil => rfl
  | cons among => contradiction

theorem checkCount_eq_ok_iff : checkCount elements = .ok () ↔ ∃ element, elements = [element] := by
  match elements with
  | [] => simp [checkCount]
  | [element] => simp [checkCount]
  | first :: second :: rest => simp [checkCount]

theorem check_eq_ok_iff : tag.check element = .ok () ↔
    tag.checkAttributes element = .ok () ∧ tag.checkContents element.children = .ok () := by
  cases tag with
  | entity => exact seq_eq_ok_iff
  | link => exact seq_eq_ok_iff
  | _ => exact seq_eq_ok_iff.trans and_comm

theorem Derives.parts (h : tag.Derives element) : tag.checkAttributes element = .ok () ∧
    DerivesAll tag.contents element.children := by
  cases h with
  | fetch _ sole inside =>
    refine ⟨checkCount_eq_ok_iff.mpr ⟨_, sole⟩, ?_⟩
    rw [sole]
    exact .cons List.mem_cons_self inside .nil
  | entity _ name inside =>
    obtain ⟨_, hname⟩ := required_eq_ok_iff.mpr name
    exact ⟨by simp only [checkAttributes, hname, ok_bind, pure_eq_ok], inside⟩
  | link _ name target source kind inside =>
    obtain ⟨_, hname⟩ := required_eq_ok_iff.mpr name
    obtain ⟨_, htarget⟩ := required_eq_ok_iff.mpr target
    obtain ⟨_, hsource⟩ := required_eq_ok_iff.mpr source
    obtain ⟨_, hkind⟩ : ∃ kind?, element.joinKind? = .ok kind? := keyword?_eq_ok_iff.mpr kind
    refine ⟨?_, inside⟩
    simp only [checkAttributes, hname, htarget, hsource, hkind, ok_bind, pure_eq_ok]
  | column _ name aggregate grouping empty =>
    obtain ⟨_, hname⟩ := required_eq_ok_iff.mpr name
    obtain ⟨_, haggregate⟩ : ∃ aggregate?, element.aggregate? = .ok aggregate? :=
      keyword?_eq_ok_iff.mpr aggregate
    obtain ⟨_, hgrouping⟩ : ∃ grouping?, element.dateGrouping? = .ok grouping? :=
      keyword?_eq_ok_iff.mpr grouping
    refine ⟨?_, empty ▸ .nil⟩
    simp only [checkAttributes, hname, haggregate, hgrouping, ok_bind, pure_eq_ok]
  | filter _ connective inside =>
    obtain ⟨_, hconnective⟩ : ∃ connective?, element.connective? = .ok connective? :=
      keyword?_eq_ok_iff.mpr connective
    exact ⟨by simp only [checkAttributes, hconnective, ok_bind, pure_eq_ok], inside⟩
  | condition _ column operator known inside =>
    obtain ⟨_, hcolumn⟩ := required_eq_ok_iff.mpr column
    obtain ⟨_, hoperator⟩ := operator_eq_ok_iff.mpr ⟨operator, known⟩
    exact ⟨by simp only [checkAttributes, hcolumn, hoperator, ok_bind, pure_eq_ok], inside⟩
  | allColumns _ empty => exact ⟨rfl, empty ▸ .nil⟩
  | noColumns _ empty => exact ⟨rfl, empty ▸ .nil⟩
  | order _ empty => exact ⟨rfl, empty ▸ .nil⟩
  | value _ empty => exact ⟨rfl, empty ▸ .nil⟩

theorem derives_of_parts (named : element.name = tag.name)
    (hattributes : tag.checkAttributes element = .ok ())
    (hinside : DerivesAll tag.contents element.children) : tag.Derives element := by
  cases tag with
  | fetch =>
    obtain ⟨entity, sole⟩ := checkCount_eq_ok_iff.mp hattributes
    obtain ⟨tag, hamong, hentity⟩ := hinside.exists_of_mem (sole ▸ List.mem_cons_self)
    obtain rfl := List.mem_singleton.mp hamong
    exact .fetch named sole hentity
  | entity =>
    obtain ⟨_, hname, -⟩ := bind_eq_ok_iff.mp hattributes
    exact .entity named (required_eq_ok_iff.mp ⟨_, hname⟩) hinside
  | link =>
    obtain ⟨_, hname, hattributes⟩ := bind_eq_ok_iff.mp hattributes
    obtain ⟨_, htarget, hattributes⟩ := bind_eq_ok_iff.mp hattributes
    obtain ⟨_, hsource, hattributes⟩ := bind_eq_ok_iff.mp hattributes
    obtain ⟨_, hkind, -⟩ := bind_eq_ok_iff.mp hattributes
    exact .link named (required_eq_ok_iff.mp ⟨_, hname⟩) (required_eq_ok_iff.mp ⟨_, htarget⟩)
      (required_eq_ok_iff.mp ⟨_, hsource⟩) (keyword?_eq_ok_iff.mp ⟨_, hkind⟩) hinside
  | column =>
    obtain ⟨_, hname, hattributes⟩ := bind_eq_ok_iff.mp hattributes
    obtain ⟨_, haggregate, hattributes⟩ := bind_eq_ok_iff.mp hattributes
    obtain ⟨_, hgrouping, -⟩ := bind_eq_ok_iff.mp hattributes
    exact .column named (required_eq_ok_iff.mp ⟨_, hname⟩) (keyword?_eq_ok_iff.mp ⟨_, haggregate⟩)
      (keyword?_eq_ok_iff.mp ⟨_, hgrouping⟩) hinside.eq_nil
  | filter =>
    obtain ⟨_, hconnective, -⟩ := bind_eq_ok_iff.mp hattributes
    exact .filter named (keyword?_eq_ok_iff.mp ⟨_, hconnective⟩) hinside
  | condition =>
    obtain ⟨_, hcolumn, hattributes⟩ := bind_eq_ok_iff.mp hattributes
    obtain ⟨_, hoperator, -⟩ := bind_eq_ok_iff.mp hattributes
    obtain ⟨operator, known⟩ := operator_eq_ok_iff.mp ⟨_, hoperator⟩
    exact .condition named (required_eq_ok_iff.mp ⟨_, hcolumn⟩) operator known hinside
  | allColumns => exact .allColumns named hinside.eq_nil
  | noColumns => exact .noColumns named hinside.eq_nil
  | order => exact .order named hinside.eq_nil
  | value => exact .value named hinside.eq_nil

mutual

theorem checkElement_eq_ok_iff : (element : Element) → (tag : Tag) → element.name = tag.name →
    (tag.checkElement element = .ok () ↔ tag.Derives element)
  | ⟨name, attributes, children, text?⟩, tag, hname => by
    have hinside := checkElements_eq_ok_iff children tag
    rw [checkElement, seq_eq_ok_iff, check_eq_ok_iff, and_assoc]
    constructor
    · rintro ⟨hattributes, hcontents, helements⟩
      exact derives_of_parts hname hattributes (hinside.mp ⟨hcontents, helements⟩)
    · intro h
      exact ⟨h.parts.1, hinside.mpr h.parts.2⟩

theorem checkElements_eq_ok_iff : (elements : List Element) → (tag : Tag) →
    (tag.checkContents elements = .ok () ∧ checkElements elements = .ok () ↔
      DerivesAll tag.contents elements)
  | [], tag => by simp [checkContents, checkElements, DerivesAll.nil]
  | ⟨name, attributes, children, text?⟩ :: rest, tag => by
    have hrest := checkElements_eq_ok_iff rest tag
    rw [checkContents_eq_ok_iff, List.forall_mem_cons, ← checkContents_eq_ok_iff]
    constructor
    · rintro ⟨⟨⟨inner, hamong, hname⟩, hcontents⟩, helements⟩
      dsimp only at hname
      rw [checkElements, hname, ofName?_name, ← hname] at helements
      obtain ⟨hfirst, hothers⟩ := seq_eq_ok_iff.mp helements
      exact .cons hamong ((checkElement_eq_ok_iff _ inner hname).mp hfirst)
        (hrest.mp ⟨hcontents, hothers⟩)
    · rintro (_ | ⟨hamong, hfirst, hothers⟩)
      obtain ⟨hcontents, helements⟩ := hrest.mpr hothers
      have hname := hfirst.name_eq
      have hcheck := (checkElement_eq_ok_iff _ _ hname).mpr hfirst
      refine ⟨⟨⟨_, hamong, hname⟩, hcontents⟩, ?_⟩
      dsimp only at hname
      rw [checkElements, hname, ofName?_name, ← hname]
      exact seq_eq_ok_iff.mpr ⟨hcheck, helements⟩

end

end Tag

theorem checkDocument_eq_ok_iff {element : Element} :
    element.checkDocument = .ok () ↔ Tag.fetch.Derives element := by
  unfold Markup.Element.checkDocument
  split
  · rename_i hname
    exact Tag.checkElement_eq_ok_iff element .fetch hname
  · rename_i hname
    constructor
    · nofun
    · intro h
      exact absurd h.name_eq hname

end RecordQuery
