import RecordQuery.Proofs.Plan.InPlace
import RecordQuery.Proofs.Plan.Pairing

namespace RecordQuery

namespace PlannedLink

mutual

def named : PlannedLink → Link
  | ⟨aliasName, ⟨source, entity, target, kind, _, columns, filter, orders, _⟩, children⟩ =>
    ⟨source, entity, target, kind, some aliasName, columns, filter, orders, namedAll children⟩

def namedAll : List PlannedLink → List Link
  | [] => []
  | planned :: rest => planned.named :: namedAll rest

end

mutual

theorem named_within : (planned : PlannedLink) →
    planned.named.within.map (fun link => (link.alias?, link.entity)) =
      planned.aliases.map fun entry => (some entry.1, entry.2)
  | ⟨aliasName, ⟨source, entity, target, kind, alias?, columns, filter, orders, links⟩,
      children⟩ => by
    simp only [named, Link.within, aliases, List.map_cons, namedAll_withinAll children]

theorem namedAll_withinAll : (links : List PlannedLink) →
    (Link.withinAll (namedAll links)).map (fun link => (link.alias?, link.entity)) =
      (aliasesAll links).map fun entry => (some entry.1, entry.2)
  | [] => rfl
  | planned :: rest => by
    simp only [namedAll, Link.withinAll, aliasesAll, List.map_append, named_within planned,
      namedAll_withinAll rest]

end

end PlannedLink

namespace Plan

variable {catalog : Catalog}

mutual

theorem planLink_nameLink {parent : String} {taken after : Aliases} {planned : PlannedLink} :
    (link : Link) → planLink catalog parent taken link = .ok (planned, after) →
    taken.nameLink link = (planned.named, after)
  | ⟨source, entity, target, kind, alias?, columns, filter, orders, links⟩, h => by
    obtain ⟨-, haliasName, hlink, hchildren⟩ := planLink_cases h
    obtain ⟨aliasName, planned, children⟩ := planned
    subst haliasName hlink
    simp only [Aliases.nameLink, PlannedLink.named, planLinks_nameLinks links hchildren]

theorem planLinks_nameLinks {parent : String} {taken after : Aliases}
    {planned : List PlannedLink} : (links : List Link) →
    planLinks catalog parent taken links = .ok (planned, after) →
    taken.nameLinks links = (PlannedLink.namedAll planned, after)
  | [], h => by
    unfold planLinks at h
    obtain ⟨rfl, rfl⟩ := Prod.mk.inj (Except.ok.inj h)
    rfl
  | link :: rest, h => by
    obtain ⟨first, middle, others, hfirst, hothers, rfl⟩ := planLinks_cases h
    simp only [Aliases.nameLinks, PlannedLink.namedAll, planLink_nameLink link hfirst,
      planLinks_nameLinks rest hothers]

end

def Registers (link : Link) (entry : String × String) : Prop :=
  entry.2 = link.entity ∧ ∀ aliasName, link.alias? = some aliasName → entry.1 = aliasName

mutual

theorem planLink_registers {parent : String} {taken after : Aliases} {planned : PlannedLink} :
    (link : Link) → planLink catalog parent taken link = .ok (planned, after) →
    List.Forall₂ Registers link.within planned.aliases
  | ⟨source, entity, target, kind, alias?, columns, filter, orders, links⟩, h => by
    obtain ⟨-, haliasName, hlink, hchildren⟩ := planLink_cases h
    obtain ⟨aliasName, planned, children⟩ := planned
    subst haliasName hlink
    refine .cons ⟨rfl, ?_⟩ (planLinks_registers links hchildren)
    rintro aliasName rfl
    rfl

theorem planLinks_registers {parent : String} {taken after : Aliases}
    {planned : List PlannedLink} : (links : List Link) →
    planLinks catalog parent taken links = .ok (planned, after) →
    List.Forall₂ Registers (Link.withinAll links) (PlannedLink.aliasesAll planned)
  | [], h => by
    unfold planLinks at h
    obtain ⟨rfl, rfl⟩ := Prod.mk.inj (Except.ok.inj h)
    exact .nil
  | link :: rest, h => by
    obtain ⟨first, middle, others, hfirst, hothers, rfl⟩ := planLinks_cases h
    exact List.rel_append (planLink_registers link hfirst) (planLinks_registers rest hothers)

end

theorem assign_of_ofQuery {query : Query} {plan : Plan} (h : ofQuery catalog query = .ok plan) :
    (Aliases.empty.assign query.links).2 = .ok (PlannedLink.namedAll plan.links) := by
  obtain ⟨-, -, reserved, after, hreserve, hlinks⟩ := ofQuery_spec h
  simp only [Aliases.assign, hreserve, planLinks_nameLinks query.links hlinks]

theorem map_alias?_namedAll (plan : Plan) :
    (Link.withinAll (PlannedLink.namedAll plan.links)).map (·.alias?) =
      plan.aliases.map fun entry => some entry.1 := by
  have hentries := congrArg (List.map Prod.fst) (PlannedLink.namedAll_withinAll plan.links)
  rw [List.map_map, List.map_map] at hentries
  exact hentries

open Aliases (Progress)

/-- A plan has the aliases that an assignment gives to the same links, each of them once and in the
map for the entity of its own link, and an assignment that fails leaves the links as they were. -/
theorem plans_as_assigned :
    (∀ (catalog : Catalog) (query : Query) (plan : Plan), ofQuery catalog query = .ok plan →
      (Aliases.empty.assign query.links).2 = .ok (PlannedLink.namedAll plan.links) ∧
      (Link.withinAll (PlannedLink.namedAll plan.links)).map (·.alias?) =
        plan.aliases.map (fun entry => some entry.1) ∧
      List.Forall₂ Registers (Link.withinAll query.links) plan.aliases ∧
      (plan.aliases.map Prod.fst).Nodup ∧
      ∀ entry ∈ plan.aliases, AliasMap.entity plan.aliases entry.1 = .ok entry.2) ∧
    ∀ (aliases : Aliases) (links : List Link) (fault : Error),
      (aliases.assign links).2 = .error fault →
      (∃ last, (Progress.start aliases links).Reaches last ∧ last.step = .error fault) ∧
      ∀ now, (Progress.start aliases links).Reaches now → now.links = links := by
  refine ⟨?_, ?_⟩
  · intro catalog query plan h
    obtain ⟨-, -, reserved, after, -, hlinks⟩ := ofQuery_spec h
    have hnodup := aliases_nodup h
    exact ⟨assign_of_ofQuery h, map_alias?_namedAll plan, planLinks_registers query.links hlinks,
      hnodup, fun _ hentry => AliasMap.entity_eq_ok hnodup hentry⟩
  · intro aliases links fault h
    refine ⟨?_, fun now hreaches => ?_⟩
    · obtain ⟨last, hreaches, ⟨-, hassign⟩ | ⟨found, hfound, hassign⟩⟩ :=
        aliases.exists_reaches links
      · rw [hassign] at h
        contradiction
      · rw [hassign] at h
        obtain rfl := Except.error.inj h
        exact ⟨last, hreaches, hfound⟩
    · exact Progress.links_of_reaches hreaches (by rw [Progress.outcome_start]; exact h)

def accountsAndContacts : Catalog := { Catalog.empty with
  entities := [(EntityMetadata.ofName "account").withLookup "primarycontactid" ["contact"],
    (EntityMetadata.ofName "contact").withLookup "parentcustomerid" ["account"]] }

def accountWith (links : List Link) : Query := { Query.ofEntity "account" with links := links }

def toCustomer (aliasName : String) : Link :=
  ⟨"parentcustomerid", "account", "accountid", .inner, some aliasName, .none, .all, [], []⟩

def toPrimaryContact (links : List Link) : Link :=
  ⟨"primarycontactid", "contact", "contactid", .leftOuter, none, .none, .all, [], links⟩

theorem plans_as_assigned_contacts :
    (∃ plan, ofQuery accountsAndContacts
        (accountWith [toPrimaryContact [toCustomer "contact"]]) = .ok plan ∧
      plan.aliases = [("contact2", "contact"), ("contact", "account")] ∧
      (Aliases.empty.assign [toPrimaryContact [toCustomer "contact"]]).2 =
        .ok (PlannedLink.namedAll plan.links)) ∧
    (Aliases.empty.assign [toPrimaryContact [toCustomer "c"], toCustomer "c"]).2 =
      .error (.name (.repeatedAlias "c")) ∧
    ∀ now, (Progress.start Aliases.empty
        [toPrimaryContact [toCustomer "c"], toCustomer "c"]).Reaches now →
      now.links = [toPrimaryContact [toCustomer "c"], toCustomer "c"] := by
  obtain ⟨hplans, hfails⟩ := plans_as_assigned
  refine ⟨⟨_, rfl, by decide, ?_⟩, rfl, (hfails Aliases.empty _ _ rfl).2⟩
  exact (hplans accountsAndContacts (accountWith [toPrimaryContact [toCustomer "contact"]])
    _ rfl).1

end Plan

end RecordQuery
