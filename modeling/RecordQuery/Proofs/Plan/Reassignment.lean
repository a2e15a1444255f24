import RecordQuery.Proofs.Plan.Assignment
import RecordQuery.Proofs.Plan.Splitting

/-!
Links that have been given their aliases, planned or assigned again. An alias is kept if it is an
identifier. Those that the query gives are; the others are as their entities are named.
-/

namespace RecordQuery

theorem exists_of_forall₂ {α β : Type} {R : α → β → Prop} {items : List α} {others : List β}
    (h : List.Forall₂ R items others) {item : α} (hitem : item ∈ items) :
    ∃ other ∈ others, R item other := by
  induction h with
  | nil => contradiction
  | cons hfirst _ ih =>
    rcases List.mem_cons.mp hitem with rfl | hrest
    · exact ⟨_, List.mem_cons_self, hfirst⟩
    · obtain ⟨other, hother, hR⟩ := ih hrest
      exact ⟨other, List.mem_cons_of_mem _ hother, hR⟩

namespace Aliases

theorem isNameChar_of_isDigit {c : Char} (h : Text.isDigit c = true) : isNameChar c = true := by
  simp only [Text.isDigit, Bool.and_eq_true, decide_eq_true_eq] at h
  have hdigit : c.isDigit = true := by
    simp only [Char.isDigit, Bool.and_eq_true, decide_eq_true_eq]
    exact h
  simp only [isNameChar, Char.isAlphanum, hdigit, Bool.or_true, Bool.true_or]

theorem not_isNameStart_of_isDigit {c : Char} (h : Text.isDigit c = true) :
    isNameStart c = false := by
  simp only [Text.isDigit, Bool.and_eq_true, decide_eq_true_eq, Char.le_def,
    UInt32.le_iff_toNat_le] at h
  have hhigh : c.val.toNat ≤ 57 := h.2
  have hletter : c.isAlpha = false := by
    rw [Bool.eq_false_iff]
    intro halpha
    delta Char.isAlpha Char.isUpper Char.isLower at halpha
    simp only [Bool.or_eq_true, Bool.and_eq_true, decide_eq_true_eq, ge_iff_le,
      UInt32.le_iff_toNat_le] at halpha
    have hupper : ('A'.val).toNat = 65 := rfl
    have hlower : ('a'.val).toNat = 97 := rfl
    omega
  have hunderscore : c ≠ '_' := by
    rintro rfl
    exact absurd hhigh (by decide)
  simp only [isNameStart, hletter, Bool.false_or, beq_eq_false_iff_ne]
  exact hunderscore

theorem isValid_candidate (entity : String) (n : Nat) :
    isValid (candidate entity n) = isValid entity := by
  cases n with
  | zero => rfl
  | succ n =>
    have hdigits : ∀ c ∈ Text.natChars (n + 2), Text.isDigit c = true :=
      fun c hc => Text.isDigit_of_mem_natChars hc
    simp only [isValid, candidate, String.toList_append, Text.toList_natText]
    cases entity.toList with
    | cons c rest =>
      have hall : (Text.natChars (n + 2)).all isNameChar = true :=
        List.all_eq_true.mpr fun c hc => isNameChar_of_isDigit (hdigits c hc)
      simp only [List.cons_append, List.all_append, hall, Bool.and_true]
    | nil =>
      -- The number alone is none, as no identifier starts with a digit.
      cases hchars : Text.natChars (n + 2) with
      | nil => exact absurd hchars (Text.natChars_ne_nil _)
      | cons c rest =>
        have hstart := not_isNameStart_of_isDigit (hdigits c (by rw [hchars]; simp))
        simp only [List.nil_append, hstart, Bool.false_and]

theorem exists_candidate (aliases : Aliases) (entity : String) :
    ∃ n, aliases.free entity = candidate entity n := by
  unfold free
  cases hfind : ((List.range (aliases.taken.length + 1)).map (candidate entity)).find?
      fun name => !aliases.taken.contains name with
  | some name =>
    obtain ⟨n, -, hname⟩ := List.mem_map.mp (List.mem_of_find?_eq_some hfind)
    exact ⟨n, hname.symm⟩
  | none => exact ⟨0, rfl⟩

/-- A link, and the one that it becomes: it keeps an alias that it has, and has one that is tried
for its entity otherwise. -/
def Becomes (link named : Link) : Prop :=
  match link.alias? with
  | some aliasName => named.alias? = some aliasName
  | none => ∃ n, named.alias? = some (candidate link.entity n)

theorem becomes_allocateMissing (aliases : Aliases) (link named : Link)
    (h : named.alias? = some (aliases.allocateMissing link.alias? link.entity).1) :
    Becomes link named := by
  unfold Becomes
  cases halias : link.alias? with
  | some aliasName => rw [h, halias, allocateMissing]
  | none =>
    obtain ⟨n, hn⟩ := aliases.exists_candidate link.entity
    exact ⟨n, by rw [h, halias, allocateMissing, allocate, hn]⟩

mutual

theorem nameLink_becomes (aliases : Aliases) : (link : Link) →
    List.Forall₂ Becomes link.within (aliases.nameLink link).1.within
  | ⟨source, entity, target, kind, alias?, columns, filter, orders, links⟩ => by
    rw [nameLink]
    exact .cons (becomes_allocateMissing aliases _ _ rfl) (nameLinks_becomes _ links)

theorem nameLinks_becomes (aliases : Aliases) : (links : List Link) →
    List.Forall₂ Becomes (Link.withinAll links) (Link.withinAll (aliases.nameLinks links).1)
  | [] => .nil
  | link :: rest => by
    rw [nameLinks]
    exact List.rel_append (nameLink_becomes aliases link) (nameLinks_becomes _ rest)

end

mutual

theorem nameLink_extends (aliases : Aliases) : (link : Link) →
    Extends aliases (aliases.nameLink link).2 link.explicitAliases
      (aliases.nameLink link).1.explicitAliases
  | ⟨_, entity, _, _, alias?, _, _, _, links⟩ =>
    (extends_allocateMissing aliases alias? entity).append (nameLinks_extends _ links)

theorem nameLinks_extends (aliases : Aliases) : (links : List Link) →
    Extends aliases (aliases.nameLinks links).2 (Link.explicitAliasesAll links)
      (Link.explicitAliasesAll (aliases.nameLinks links).1)
  | [] => Extends.nil aliases
  | link :: rest => (nameLink_extends aliases link).append (nameLinks_extends _ rest)

end

theorem reserveAll_of_nodup {names : List String} (hnodup : names.Nodup) (aliases : Aliases)
    (hfree : ∀ name ∈ names, name ∉ aliases.taken) :
    (aliases.reserveAll names).2 =
      match names.find? fun name => !isValid name with
      | some name => .error (.name (.invalidAlias name))
      | none => .ok () := by
  induction names generalizing aliases with
  | nil => rfl
  | cons name rest ih =>
    obtain ⟨hname, hrest⟩ := List.nodup_cons.mp hnodup
    cases hvalid : isValid name with
    | false => simp [reserveAll, reserve, hvalid]
    | true =>
      have hreserve : aliases.reserve name = .ok ⟨name :: aliases.taken⟩ := by
        simp [reserve, hvalid, hfree name List.mem_cons_self]
      rw [reserveAll, hreserve, List.find?_cons_of_neg (by simp [hvalid])]
      apply ih hrest
      intro other hother
      rw [List.mem_cons, not_or]
      refine ⟨?_, hfree other (List.mem_cons_of_mem _ hother)⟩
      rintro rfl
      exact hname hother

section Assigned

variable {links named : List Link}

theorem assign_spec (h : (empty.assign links).2 = .ok named) :
    (empty.reserveAll (Link.explicitAliasesAll links)).2 = .ok () ∧
      named = ((Link.reserved links).nameLinks links).1 := by
  unfold assign at h
  unfold Link.reserved
  cases hreserve : empty.reserveAll (Link.explicitAliasesAll links) with
  | mk reserved outcome =>
    rw [hreserve] at h
    cases outcome with
    | error fault => contradiction
    | ok => exact ⟨rfl, (Except.ok.inj h).symm⟩

theorem exists_assign_iff (links : List Link) : (∃ named, (empty.assign links).2 = .ok named) ↔
    (Link.explicitAliasesAll links).Nodup ∧
      ∀ name ∈ Link.explicitAliasesAll links, isValid name = true := by
  constructor
  · rintro ⟨named, h⟩
    obtain ⟨-, hnodup, hvalid⟩ := reserveAll_spec _ _ (assign_spec h).1
    exact ⟨hnodup, fun name hname => (hvalid name hname).2⟩
  · rintro ⟨hnodup, hvalid⟩
    have hreserve := reserveAll_eq_ok hnodup empty fun name hname =>
      ⟨hvalid name hname, List.not_mem_nil⟩
    exact ⟨_, assign_of_reserveAll hreserve⟩

theorem filters_of_assign (h : (empty.assign links).2 = .ok named) :
    (Link.withinAll named).map (·.filter) = (Link.withinAll links).map (·.filter) := by
  obtain ⟨-, rfl⟩ := assign_spec h
  exact nameLinks_filters links _

theorem nodup_of_assign (h : (empty.assign links).2 = .ok named) :
    (Link.explicitAliasesAll named).Nodup := by
  obtain ⟨hreserve, rfl⟩ := assign_spec h
  obtain ⟨htaken, hnodup, -⟩ := reserveAll_spec _ _ hreserve
  obtain ⟨fresh, -, hfresh, hnot, hperm⟩ := nameLinks_extends (Link.reserved links) links
  refine hperm.nodup_iff.mpr (List.nodup_append.mpr ⟨hnodup, hfresh, ?_⟩)
  rintro name hname other hother rfl
  apply hnot name hother
  rw [Link.reserved, htaken]
  simpa using Or.inl hname

theorem becomes_of_assign (h : (empty.assign links).2 = .ok named) :
    List.Forall₂ Becomes (Link.withinAll links) (Link.withinAll named) := by
  obtain ⟨-, rfl⟩ := assign_spec h
  exact nameLinks_becomes _ links

theorem named_of_assign (h : (empty.assign links).2 = .ok named) :
    ∀ link ∈ Link.withinAll named, link.alias?.isSome = true := by
  intro link hlink
  obtain ⟨before, -, hbecomes⟩ := exists_of_forall₂ (becomes_of_assign h).flip hlink
  split at hbecomes
  · rw [hbecomes]
    rfl
  · obtain ⟨n, hn⟩ := hbecomes
    rw [hn]
    rfl

theorem exists_of_not_isValid (h : (empty.assign links).2 = .ok named) {name : String}
    (hname : name ∈ Link.explicitAliasesAll named) (hvalid : isValid name = false) :
    ∃ link ∈ Link.withinAll links, link.alias? = none ∧ isValid link.entity = false ∧
      ∃ n, name = candidate link.entity n := by
  rw [Link.explicitAliasesAll_eq, List.mem_filterMap] at hname
  obtain ⟨again, hagain, hname⟩ := hname
  obtain ⟨link, hlink, hbecomes⟩ := exists_of_forall₂ (becomes_of_assign h).flip hagain
  cases halias : link.alias? with
  | some aliasName =>
    exfalso
    rw [halias, hname] at hbecomes
    obtain rfl := Option.some.inj hbecomes
    have hgiven := (reserveAll_spec _ _ (assign_spec h).1).2.2 name (by
      rw [Link.explicitAliasesAll_eq, List.mem_filterMap]
      exact ⟨link, hlink, halias⟩)
    rw [hgiven.2] at hvalid
    contradiction
  | none =>
    rw [halias, hname] at hbecomes
    obtain ⟨n, hn⟩ := hbecomes
    obtain rfl := Option.some.inj hn
    rw [isValid_candidate] at hvalid
    exact ⟨link, hlink, halias, hvalid, n, rfl⟩

theorem isValid_of_assign (h : (empty.assign links).2 = .ok named)
    (hvalid : ∀ name ∈ Link.explicitAliasesAll named, isValid name = true) :
    ∀ link ∈ Link.withinAll links, link.alias? = none → isValid link.entity = true := by
  intro link hlink halias
  obtain ⟨again, hagain, hbecomes⟩ := exists_of_forall₂ (becomes_of_assign h) hlink
  unfold Becomes at hbecomes
  rw [halias] at hbecomes
  obtain ⟨n, hn⟩ := hbecomes
  rw [← isValid_candidate link.entity n]
  apply hvalid
  rw [Link.explicitAliasesAll_eq, List.mem_filterMap]
  exact ⟨again, hagain, hn⟩

theorem reserveAll_of_assign (h : (empty.assign links).2 = .ok named) :
    (empty.reserveAll (Link.explicitAliasesAll named)).2 =
      match (Link.explicitAliasesAll named).find? fun name => !isValid name with
      | some name => .error (.name (.invalidAlias name))
      | none => .ok () :=
  reserveAll_of_nodup (nodup_of_assign h) empty fun _ _ => List.not_mem_nil

theorem reserveAll_of_assign_iff (h : (empty.assign links).2 = .ok named) :
    (empty.reserveAll (Link.explicitAliasesAll named)).2 = .ok () ↔
      ∀ link ∈ Link.withinAll links, link.alias? = none → isValid link.entity = true := by
  constructor
  · intro hreserve
    exact isValid_of_assign h fun name hname => ((reserveAll_spec _ _ hreserve).2.2 name hname).2
  · intro hentities
    apply reserveAll_eq_ok (nodup_of_assign h)
    intro name hname
    refine ⟨?_, List.not_mem_nil⟩
    by_contra hvalid
    obtain ⟨link, hlink, halias, hentity, -⟩ :=
      exists_of_not_isValid h hname (Bool.eq_false_of_not_eq_true hvalid)
    rw [hentities link hlink halias] at hentity
    contradiction

theorem assign_eq_reserveAll (h : (empty.assign links).2 = .ok named) :
    (empty.assign named).2 =
      (empty.reserveAll (Link.explicitAliasesAll named)).2.map fun _ => named := by
  unfold assign
  cases empty.reserveAll (Link.explicitAliasesAll named) with
  | mk reserved outcome =>
    cases outcome with
    | error fault => rfl
    | ok => simp only [nameLinks_of_named named reserved (named_of_assign h), Except.map]

end Assigned

end Aliases

namespace PlannedLink

theorem aliasesAll_congr {links others : List PlannedLink} (h : namedAll others = namedAll links) :
    aliasesAll others = aliasesAll links := by
  have hentries : Function.Injective fun entry : String × String => (some entry.1, entry.2) := by
    rintro ⟨aliasName, entity⟩ ⟨otherName, other⟩ hpair
    obtain ⟨hname, hentity⟩ := Prod.mk.inj hpair
    exact Prod.ext (Option.some.inj hname) hentity
  apply List.map_injective_iff.mpr hentries
  rw [← namedAll_withinAll, ← namedAll_withinAll, h]

end PlannedLink

namespace Plan

variable {catalog : Catalog}

mutual

theorem planLink_nameLink_alike (taken taken' : Aliases) : (link : Link) → (parent : String) →
    Carries True (fun first second => second.1.named = first.1.named)
      (planLink catalog parent taken link) (planLink catalog parent taken' (taken.nameLink link).1)
  | ⟨source, entity, target, kind, alias?, columns, filter, orders, links⟩, parent => by
    unfold Aliases.nameLink planLink
    cases catalog.knows entity with
    | false => exact Carries.of_error _
    | true =>
      simp only [Bool.not_true, Bool.false_eq_true, if_false]
      apply Carries.bind (R := Eq) (Carries.of_eq rfl)
      rintro _ _ -
      apply Carries.bind (R := Eq) (Carries.of_eq rfl)
      rintro _ _ -
      apply (planLinks_nameLinks_alike _ taken' links entity).bind
      rintro first second hchildren
      apply Carries.of_ok
      simp only [PlannedLink.named, hchildren, Aliases.allocateMissing]

theorem planLinks_nameLinks_alike (taken taken' : Aliases) : (links : List Link) →
    (parent : String) →
    Carries True (fun first second => PlannedLink.namedAll second.1 = PlannedLink.namedAll first.1)
      (planLinks catalog parent taken links)
      (planLinks catalog parent taken' (taken.nameLinks links).1)
  | [], _ => Carries.of_ok rfl
  | link :: rest, parent => by
    unfold Aliases.nameLinks planLinks
    apply (planLink_nameLink_alike taken taken' link parent).with_ok.bind
    rintro ⟨planned, after⟩ ⟨again, after'⟩ ⟨hok, -, hnamed⟩
    obtain rfl := planLink_taken link hok
    apply (planLinks_nameLinks_alike _ after' rest parent).bind
    rintro first second hothers
    apply Carries.of_ok
    simp only at hnamed
    simp only [PlannedLink.namedAll, hnamed, hothers]

end

theorem exists_ofQuery_again {query : Query} {plan : Plan} {named : List Link}
    (h : (Aliases.empty.assign query.links).2 = .ok named)
    (hreserve : (Aliases.empty.reserveAll (Link.explicitAliasesAll named)).2 = .ok ())
    (hplan : ofQuery catalog query = .ok plan) :
    ∃ again, ofQuery catalog { query with links := named } = .ok again ∧
      PlannedLink.namedAll again.links = named ∧ again.aliases = plan.aliases := by
  have hassign := assign_of_ofQuery hplan
  obtain rfl := Except.ok.inj (h.symm.trans hassign)
  obtain ⟨-, -, reserved, after, hreserved, hlinks⟩ := ofQuery_spec hplan
  obtain ⟨⟨again, last⟩, hagain, hnamed⟩ :=
    (planLinks_nameLinks_alike reserved (Link.reserved (PlannedLink.namedAll plan.links))
      query.links query.entity).ok _ hlinks
  rw [planLinks_nameLinks query.links hlinks] at hagain
  refine ⟨{ plan with links := again }, ofQuery_with hplan ?_ hagain, hnamed,
    PlannedLink.aliasesAll_congr hnamed⟩
  rw [← hreserve]
  rfl

/-- Links that have been given their aliases keep them when they are assigned or planned again, if
and only if each entity that an alias was found for is named by an identifier. Otherwise such an
alias is refused. -/
theorem reassigned_iff (links named : List Link)
    (h : (Aliases.empty.assign links).2 = .ok named) :
    ((Aliases.empty.assign named).2 = .ok named ↔
      ∀ link ∈ Link.withinAll links, link.alias? = none → Aliases.isValid link.entity = true) ∧
    ((Aliases.empty.reserveAll (Link.explicitAliasesAll named)).2 = .ok () ↔
      ∀ link ∈ Link.withinAll links, link.alias? = none → Aliases.isValid link.entity = true) ∧
    (∀ (catalog : Catalog) (query : Query) (plan : Plan), query.links = links →
      ofQuery catalog query = .ok plan →
      (∀ link ∈ Link.withinAll links, link.alias? = none → Aliases.isValid link.entity = true) →
      ∃ again, ofQuery catalog { query with links := named } = .ok again ∧
        PlannedLink.namedAll again.links = named ∧ again.aliases = plan.aliases) ∧
    ∀ fault, (Aliases.empty.assign named).2 = .error fault →
      ∃ link ∈ Link.withinAll links, link.alias? = none ∧ Aliases.isValid link.entity = false ∧
        ∃ n, fault = .name (.invalidAlias (Aliases.candidate link.entity n)) := by
  have hreserve := Aliases.reserveAll_of_assign_iff h
  have hassign := Aliases.assign_eq_reserveAll h
  refine ⟨?_, hreserve, ?_, ?_⟩
  · rw [← hreserve, hassign, map_eq_ok_iff]
    constructor
    · rintro ⟨⟨⟩, hok, -⟩
      exact hok
    · intro hok
      exact ⟨⟨⟩, hok, rfl⟩
  · rintro catalog query plan rfl hplan hentities
    exact exists_ofQuery_again h (hreserve.mpr hentities) hplan
  · intro fault hfault
    rw [hassign, map_eq_error_iff, Aliases.reserveAll_of_assign h] at hfault
    split at hfault
    · rename_i name hfind
      obtain rfl := Except.error.inj hfault
      have hvalid := List.find?_some hfind
      obtain ⟨link, hlink, halias, hentity, n, rfl⟩ :=
        Aliases.exists_of_not_isValid h (List.mem_of_find?_eq_some hfind) (by simpa using hvalid)
      exact ⟨link, hlink, halias, hentity, n, rfl⟩
    · contradiction

theorem reassigned_iff_contacts :
    ∃ named, (Aliases.empty.assign [toPrimaryContact [toCustomer "contact"]]).2 = .ok named ∧
      (Aliases.empty.assign named).2 = .ok named ∧
      ∃ again, ofQuery accountsAndContacts (accountWith named) = .ok again ∧
        PlannedLink.namedAll again.links = named ∧
        again.aliases = [("contact2", "contact"), ("contact", "account")] := by
  obtain ⟨hassign, -, hplan, -⟩ := reassigned_iff _ _
    (rfl : (Aliases.empty.assign [toPrimaryContact [toCustomer "contact"]]).2 = .ok _)
  have hentities : ∀ link ∈ Link.withinAll [toPrimaryContact [toCustomer "contact"]],
      link.alias? = none → Aliases.isValid link.entity = true := by
    intro link hlink _
    simp only [toPrimaryContact, toCustomer, Link.withinAll, Link.within, List.append_nil,
      List.mem_cons, List.not_mem_nil, or_false] at hlink
    rcases hlink with rfl | rfl <;> decide
  obtain ⟨again, hagain, hnamed, haliases⟩ := hplan accountsAndContacts
    (accountWith [toPrimaryContact [toCustomer "contact"]]) _ rfl rfl hentities
  exact ⟨_, rfl, hassign.mpr hentities, again, hagain, hnamed, haliases.trans (by decide)⟩

def accountsAnd (contact : String) : Catalog := { Catalog.empty with
  entities := [EntityMetadata.ofName "account",
    (EntityMetadata.ofName contact).withLookup "accountid" ["account"]] }

def toThe (contact : String) : Link :=
  ⟨"accountid", contact, "accountid", .inner, none, .none, .all, [], []⟩

theorem exists_not_reassigned :
    ∃ (catalog : Catalog) (links named : List Link) (plan : Plan),
      (Aliases.empty.assign links).2 = .ok named ∧
      ofQuery catalog (accountWith links) = .ok plan ∧
      (Aliases.empty.assign named).2 = .error (.name (.invalidAlias "my-contact")) ∧
      ofQuery catalog (accountWith named) = .error (.name (.invalidAlias "my-contact")) :=
  ⟨accountsAnd "my-contact", [toThe "my-contact"], _, _, rfl, rfl, rfl, rfl⟩

end Plan

end RecordQuery
