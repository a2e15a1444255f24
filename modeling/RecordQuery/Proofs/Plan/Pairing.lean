import RecordQuery.Proofs.Carrying
import RecordQuery.Proofs.Plan.Aliases
import RecordQuery.Proofs.Query.Revision

namespace RecordQuery

variable (R : String → Link → Link → Prop)

namespace Link

mutual

def Pairs (taken : Aliases) : Link → Link → Prop
  | ⟨source, entity, target, kind, alias?, columns, filter, orders, links⟩, other =>
    other.source = source ∧ other.entity = entity ∧ other.target = target ∧ other.alias? = alias? ∧
      R (taken.allocateMissing alias? entity).1
        ⟨source, entity, target, kind, alias?, columns, filter, orders, links⟩ other ∧
      PairsAll (taken.allocateMissing alias? entity).2 links other.links

def PairsAll (taken : Aliases) : List Link → List Link → Prop
  | [], others => others = []
  | link :: rest, others => ∃ other tail, others = other :: tail ∧
      link.Pairs taken other ∧ PairsAll (taken.nameLink link).2 rest tail

end

variable {R}

mutual

theorem Pairs.explicitAliases {taken : Aliases} : (link other : Link) → link.Pairs R taken other →
    other.explicitAliases = link.explicitAliases
  | ⟨source, entity, target, kind, alias?, columns, filter, orders, links⟩,
      ⟨_, _, _, _, _, _, _, _, inner⟩, ⟨_, _, _, rfl, _, hlinks⟩ => by
    rw [Link.explicitAliases, Link.explicitAliases, PairsAll.explicitAliasesAll links inner hlinks]

theorem PairsAll.explicitAliasesAll {taken : Aliases} : (links others : List Link) →
    PairsAll R taken links others → explicitAliasesAll others = explicitAliasesAll links
  | [], _, h => by
    rw [show _ = [] from h]
  | link :: rest, _, ⟨other, tail, hcons, hfirst, hrest⟩ => by
    rw [hcons, Link.explicitAliasesAll, Link.explicitAliasesAll,
      Pairs.explicitAliases link other hfirst, PairsAll.explicitAliasesAll rest tail hrest]

end

section Revision

variable {P : Link → Prop} (f : Filter → Filter) (g : List OrderBy → List OrderBy)

mutual

theorem pairs_revise (taken : Aliases) : (link : Link) → (∀ inner ∈ link.within, P inner) →
    link.Pairs (fun _ link other => P link ∧ other = link.revise f g) taken (link.revise f g)
  | ⟨source, entity, target, kind, alias?, columns, filter, orders, links⟩, h => by
    rw [within] at h
    exact ⟨rfl, rfl, rfl, rfl, ⟨h _ List.mem_cons_self, rfl⟩,
      pairsAll_revise _ links fun inner hinner => h inner (List.mem_cons_of_mem _ hinner)⟩

theorem pairsAll_revise (taken : Aliases) : (links : List Link) →
    (∀ inner ∈ withinAll links, P inner) →
    PairsAll (fun _ link other => P link ∧ other = link.revise f g) taken links
      (reviseAll f g links)
  | [], _ => rfl
  | link :: rest, h => by
    simp only [withinAll, List.mem_append] at h
    exact ⟨_, _, rfl, pairs_revise taken link fun inner hinner => h inner (Or.inl hinner),
      pairsAll_revise _ rest fun inner hinner => h inner (Or.inr hinner)⟩

end

end Revision

end Link

namespace PlannedLink

mutual

def Pairs : PlannedLink → PlannedLink → Prop
  | ⟨aliasName, link, children⟩, other =>
    other.aliasName = aliasName ∧ other.link.entity = link.entity ∧ R aliasName link other.link ∧
      PairsAll children other.children

def PairsAll : List PlannedLink → List PlannedLink → Prop
  | [], others => others = []
  | planned :: rest, others => ∃ other tail, others = other :: tail ∧
      planned.Pairs other ∧ PairsAll rest tail

end

variable {R}

mutual

theorem Pairs.aliases : (planned other : PlannedLink) → planned.Pairs R other →
    other.aliases = planned.aliases
  | ⟨aliasName, link, children⟩, ⟨_, other, inner⟩, ⟨rfl, hentity, _, hchildren⟩ => by
    simp only at hentity
    simp only [PlannedLink.aliases, hentity, PairsAll.aliasesAll children inner hchildren]

theorem PairsAll.aliasesAll : (links others : List PlannedLink) → PairsAll R links others →
    aliasesAll others = aliasesAll links
  | [], _, h => by
    rw [show _ = [] from h]
  | planned :: rest, _, ⟨other, tail, hcons, hfirst, hrest⟩ => by
    rw [hcons, PlannedLink.aliasesAll, PlannedLink.aliasesAll, Pairs.aliases planned other hfirst,
      PairsAll.aliasesAll rest tail hrest]

end

mutual

theorem Pairs.merged (hkind : ∀ aliasName link other, R aliasName link other →
    other.kind = link.kind) : (planned other : PlannedLink) → planned.Pairs R other →
    List.Forall₂ (fun first second => second.aliasName = first.aliasName ∧
        second.link.entity = first.link.entity ∧ R first.aliasName first.link second.link)
      planned.merged other.merged
  | ⟨aliasName, link, children⟩, ⟨_, other, inner⟩, ⟨rfl, hentity, hR, hchildren⟩ => by
    simp only at hentity hR hchildren
    rw [PlannedLink.merged, PlannedLink.merged, hkind _ _ _ hR]
    split
    · exact .nil
    · exact .cons ⟨rfl, hentity, hR⟩ (PairsAll.mergedAll hkind children inner hchildren)

theorem PairsAll.mergedAll (hkind : ∀ aliasName link other, R aliasName link other →
    other.kind = link.kind) : (links others : List PlannedLink) → PairsAll R links others →
    List.Forall₂ (fun first second => second.aliasName = first.aliasName ∧
        second.link.entity = first.link.entity ∧ R first.aliasName first.link second.link)
      (mergedAll links) (mergedAll others)
  | [], _, h => by
    rw [show _ = [] from h]
    exact .nil
  | planned :: rest, _, ⟨other, tail, hcons, hfirst, hrest⟩ => by
    rw [hcons, PlannedLink.mergedAll, PlannedLink.mergedAll]
    exact List.rel_append (Pairs.merged hkind planned other hfirst)
      (PairsAll.mergedAll hkind rest tail hrest)

end

end PlannedLink

def Link.reserved (links : List Link) : Aliases :=
  (Aliases.empty.reserveAll (explicitAliasesAll links)).1

namespace Plan

variable {R} {catalog : Catalog}

mutual

theorem planLink_taken {parent : String} {taken after : Aliases} {planned : PlannedLink} :
    (link : Link) → planLink catalog parent taken link = .ok (planned, after) →
    after = (taken.nameLink link).2
  | ⟨source, entity, target, kind, alias?, columns, filter, orders, links⟩, h => by
    obtain ⟨-, -, -, hchildren⟩ := planLink_cases h
    rw [Aliases.nameLink]
    exact planLinks_taken links hchildren

theorem planLinks_taken {parent : String} {taken after : Aliases} {planned : List PlannedLink} :
    (links : List Link) → planLinks catalog parent taken links = .ok (planned, after) →
    after = (taken.nameLinks links).2
  | [], h => by
    unfold planLinks at h
    rw [← (Prod.mk.inj (Except.ok.inj h)).2]
    rfl
  | link :: rest, h => by
    obtain ⟨first, middle, others, hfirst, hothers, -⟩ := planLinks_cases h
    rw [planLink_taken link hfirst] at hothers
    rw [Aliases.nameLinks]
    exact planLinks_taken rest hothers

end

mutual

theorem planLink_pairs {parent : String} {taken : Aliases} : (link other : Link) →
    link.Pairs R taken other →
    Carries True (fun first second => first.1.Pairs R second.1 ∧ second.2 = first.2)
      (planLink catalog parent taken link) (planLink catalog parent taken other)
  | ⟨source, entity, target, kind, alias?, columns, filter, orders, links⟩,
      ⟨source', entity', target', kind', alias', columns', filter', orders', links'⟩, h => by
    obtain ⟨rfl, rfl, rfl, rfl, hR, hlinks⟩ := h
    unfold planLink
    cases catalog.knows entity' with
    | false => exact Carries.of_error _
    | true =>
      simp only [Bool.not_true, Bool.false_eq_true, if_false]
      apply Carries.bind (R := Eq) (Carries.of_eq rfl)
      rintro _ _ -
      apply Carries.bind (R := Eq) (Carries.of_eq rfl)
      rintro _ _ -
      apply (planLinks_pairs links links' hlinks).bind
      rintro ⟨children, after⟩ ⟨others, _⟩ ⟨hchildren, rfl⟩
      exact Carries.of_ok ⟨⟨rfl, rfl, hR, hchildren⟩, rfl⟩

theorem planLinks_pairs {parent : String} {taken : Aliases} : (links others : List Link) →
    Link.PairsAll R taken links others →
    Carries True (fun first second =>
        PlannedLink.PairsAll R first.1 second.1 ∧ second.2 = first.2)
      (planLinks catalog parent taken links) (planLinks catalog parent taken others)
  | [], _, h => by
    rw [show _ = [] from h]
    exact Carries.of_ok ⟨rfl, rfl⟩
  | link :: rest, _, ⟨other, tail, hcons, hfirst, hrest⟩ => by
    rw [hcons, planLinks, planLinks]
    apply (planLink_pairs link other hfirst).with_ok.bind
    rintro ⟨first, after⟩ ⟨second, after'⟩ ⟨hok, -, hpair, hafter⟩
    obtain rfl := planLink_taken link hok
    obtain rfl : after' = _ := hafter
    apply (planLinks_pairs rest tail hrest).bind
    rintro ⟨planned, last⟩ ⟨others, _⟩ ⟨hpairs, rfl⟩
    exact Carries.of_ok ⟨⟨second, others, rfl, hpair, hpairs⟩, rfl⟩

end

theorem ofQuery_pairs {query other : Query} (hentity : other.entity = query.entity)
    (h : Link.PairsAll R (Link.reserved query.links) query.links other.links) :
    Carries True (fun first second => second.root = first.root ∧
        second.primaryId = first.primaryId ∧ PlannedLink.PairsAll R first.links second.links)
      (ofQuery catalog query) (ofQuery catalog other) := by
  unfold ofQuery
  rw [hentity, Link.PairsAll.explicitAliasesAll _ _ h]
  cases catalog.knows query.entity with
  | false => exact Carries.of_error _
  | true =>
    simp only [Bool.not_true, Bool.false_eq_true, if_false]
    apply Carries.bind (R := Eq) (Carries.of_eq rfl)
    rintro primaryId _ rfl
    apply Carries.bind (R := Eq) (Carries.of_eq rfl)
    rintro _ _ -
    apply (planLinks_pairs _ _ h).bind
    rintro ⟨links, _⟩ ⟨others, _⟩ ⟨hlinks, -⟩
    exact Carries.of_ok ⟨rfl, rfl, hlinks⟩

end Plan

end RecordQuery
