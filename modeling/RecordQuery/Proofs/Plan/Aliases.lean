import Mathlib.Data.List.Nodup
import Mathlib.Data.List.Perm.Subperm
import Mathlib.Tactic.Linarith
import RecordQuery.Plan
import RecordQuery.Predicate.Compile
import RecordQuery.Proofs.Outcome
import RecordQuery.Proofs.Query.Within
import RecordQuery.Proofs.Text.Numerals

namespace RecordQuery

namespace Aliases

theorem candidate_injective (entity : String) : Function.Injective (candidate entity) := by
  intro i j h
  cases i with
  | zero =>
    cases j with
    | zero => rfl
    | succ j =>
      have hlength := congrArg (fun s => s.toList.length) h
      simp only [candidate, String.toList_append, List.length_append, Text.toList_natText] at hlength
      have hpos := List.length_pos_of_ne_nil (Text.natChars_ne_nil (j + 2))
      omega
  | succ i =>
    cases j with
    | zero =>
      have hlength := congrArg (fun s => s.toList.length) h
      simp only [candidate, String.toList_append, List.length_append, Text.toList_natText] at hlength
      have hpos := List.length_pos_of_ne_nil (Text.natChars_ne_nil (i + 2))
      omega
    | succ j =>
      have hlist := congrArg String.toList h
      simp only [candidate, String.toList_append, Text.toList_natText] at hlist
      have hnumber := Text.natChars_injective (List.append_cancel_left hlist)
      omega

theorem free_spec (aliases : Aliases) (entity : String) :
    ∃ n ≤ aliases.taken.length, aliases.free entity = candidate entity n ∧
      candidate entity n ∉ aliases.taken ∧ ∀ m < n, candidate entity m ∈ aliases.taken := by
  unfold free
  rw [List.find?_map]
  cases hfind : (List.range (aliases.taken.length + 1)).find?
      ((fun name => !aliases.taken.contains name) ∘ candidate entity) with
  | some n =>
    obtain ⟨hfree, hrange, hfirst⟩ := List.find?_range_eq_some.mp hfind
    exact ⟨n, Nat.lt_succ_iff.mp (List.mem_range.mp hrange), rfl, by simpa using hfree,
      fun m hm => by simpa using hfirst m hm⟩
  | none =>
    exfalso
    rw [List.find?_eq_none] at hfind
    have hnodup : ((List.range (aliases.taken.length + 1)).map (candidate entity)).Nodup :=
      List.nodup_range.map (candidate_injective entity)
    have hsubset : (List.range (aliases.taken.length + 1)).map (candidate entity) ⊆
        aliases.taken := by
      intro name hname
      obtain ⟨n, hn, rfl⟩ := List.mem_map.mp hname
      simpa using hfind n hn
    have hlength := (hnodup.subperm hsubset).length_le
    simp only [List.length_map, List.length_range] at hlength
    omega

theorem free_not_mem (aliases : Aliases) (entity : String) :
    aliases.free entity ∉ aliases.taken := by
  obtain ⟨n, -, heq, hfree, -⟩ := aliases.free_spec entity
  rwa [heq]

theorem reserve_spec {aliases reserved : Aliases} {aliasName : String}
    (h : aliases.reserve aliasName = .ok reserved) :
    isValid aliasName = true ∧ aliasName ∉ aliases.taken ∧
      reserved.taken = aliasName :: aliases.taken := by
  unfold reserve at h
  split at h
  · contradiction
  · split at h
    · contradiction
    · rename_i hvalid hfree
      obtain rfl := Except.ok.inj h
      exact ⟨by simpa using hvalid, by simpa using hfree, rfl⟩

theorem reserveAll_spec (names : List String) (aliases : Aliases)
    (h : (aliases.reserveAll names).2 = .ok ()) :
    (aliases.reserveAll names).1.taken = names.reverse ++ aliases.taken ∧ names.Nodup ∧
      (∀ name ∈ names, name ∉ aliases.taken ∧ isValid name = true) := by
  induction names generalizing aliases with
  | nil => exact ⟨rfl, List.nodup_nil, by simp⟩
  | cons name rest ih =>
    cases hreserve : aliases.reserve name with
    | error fault =>
      simp only [reserveAll, hreserve] at h
      contradiction
    | ok reserved =>
      simp only [reserveAll, hreserve] at h ⊢
      obtain ⟨hvalid, hfree, htaken⟩ := reserve_spec hreserve
      obtain ⟨hall, hnodup, hrest⟩ := ih reserved h
      rw [htaken] at hall hrest
      refine ⟨by rw [hall]; simp, List.nodup_cons.mpr ⟨?_, hnodup⟩, ?_⟩
      · intro hmem
        exact (hrest name hmem).1 (by simp)
      · intro other hother
        rcases List.mem_cons.mp hother with rfl | hother
        · exact ⟨hfree, hvalid⟩
        · obtain ⟨hnot, hok⟩ := hrest other hother
          exact ⟨fun hmem => hnot (List.mem_cons_of_mem _ hmem), hok⟩

theorem not_isQualified_of_isValid {name : String} (h : isValid name = true) :
    Record.isQualified name = false := by
  have hnot : '.' ∉ name.toList := fun hmem =>
    absurd (isNameChar_of_isValid h _ hmem) (by decide)
  simpa [Record.isQualified] using hnot

theorem allocateMissing_cases (aliases : Aliases) (alias? : Option String) (entity : String) :
    (∃ aliasName, alias? = some aliasName ∧
      aliases.allocateMissing alias? entity = (aliasName, aliases)) ∨
    (alias? = none ∧ ∃ aliasName, aliasName ∉ aliases.taken ∧
      aliases.allocateMissing alias? entity = (aliasName, ⟨aliasName :: aliases.taken⟩)) := by
  cases alias? with
  | some aliasName => exact Or.inl ⟨aliasName, rfl, rfl⟩
  | none => exact Or.inr ⟨rfl, aliases.free entity, aliases.free_not_mem entity, rfl⟩

/-- What planning some links does to the aliases: the planned links have the given aliases and fresh
ones, and the fresh ones are taken from then on. -/
def Extends (taken after : Aliases) (given found : List String) : Prop :=
  ∃ fresh, after.taken = fresh ++ taken.taken ∧ fresh.Nodup ∧ (∀ name ∈ fresh, name ∉ taken.taken) ∧
    found.Perm (given ++ fresh)

theorem Extends.nil (taken : Aliases) : Extends taken taken [] [] :=
  ⟨[], rfl, List.nodup_nil, by simp, List.Perm.refl _⟩

theorem Extends.append {taken middle after : Aliases} {given found given' found' : List String}
    (h : Extends taken middle given found) (h' : Extends middle after given' found') :
    Extends taken after (given ++ given') (found ++ found') := by
  obtain ⟨fresh, hafter, hnodup, hnot, hperm⟩ := h
  obtain ⟨fresh', hafter', hnodup', hnot', hperm'⟩ := h'
  rw [hafter] at hafter' hnot'
  refine ⟨fresh' ++ fresh, by rw [hafter', List.append_assoc], ?_, ?_, ?_⟩
  · refine List.nodup_append.mpr ⟨hnodup', hnodup, ?_⟩
    rintro name hname other hother rfl
    exact hnot' name hname (List.mem_append_left _ hother)
  · intro name hname hmem
    rcases List.mem_append.mp hname with hname | hname
    · exact hnot' name hname (List.mem_append_right _ hmem)
    · exact hnot name hname hmem
  · have hswap : (fresh ++ (given' ++ fresh')).Perm (given' ++ (fresh' ++ fresh)) := by
      rw [← List.append_assoc given']
      exact List.perm_append_comm
    have hjoin := (hperm.append hperm').trans
      (by simpa only [List.append_assoc] using hswap.append_left given)
    simpa only [List.append_assoc] using hjoin

theorem extends_allocateMissing (taken : Aliases) (alias? : Option String) (entity : String) :
    Extends taken (taken.allocateMissing alias? entity).2 alias?.toList
      [(taken.allocateMissing alias? entity).1] := by
  rcases allocateMissing_cases taken alias? entity with
    ⟨aliasName, rfl, heq⟩ | ⟨rfl, aliasName, hnot, heq⟩
  · rw [heq]
    exact ⟨[], rfl, List.nodup_nil, by simp, by simp⟩
  · rw [heq]
    exact ⟨[aliasName], rfl, by simp, by simpa using hnot, by simp⟩

end Aliases

namespace Plan

open Aliases

theorem planLink_cases {catalog : Catalog} {parent : String} {taken after : Aliases}
    {planned : PlannedLink} {link : Link}
    (h : planLink catalog parent taken link = .ok (planned, after)) :
    catalog.knows link.entity = true ∧
      planned.aliasName = (taken.allocateMissing link.alias? link.entity).1 ∧
      planned.link = link ∧
      planLinks catalog link.entity (taken.allocateMissing link.alias? link.entity).2 link.links =
        .ok (planned.children, after) := by
  obtain ⟨source, entity, target, kind, alias?, columns, filter, orders, links⟩ := link
  unfold planLink at h
  cases hknows : catalog.knows entity with
  | false =>
    simp only [hknows, Bool.not_false, if_true, throw_eq_error, error_bind] at h
    contradiction
  | true =>
    simp only [hknows, Bool.not_true, Bool.false_eq_true, if_false] at h
    obtain ⟨-, -, h⟩ := bind_eq_ok_iff.mp h
    obtain ⟨-, -, h⟩ := bind_eq_ok_iff.mp h
    obtain ⟨⟨children, last⟩, hchildren, h⟩ := bind_eq_ok_iff.mp h
    obtain ⟨rfl, rfl⟩ := Prod.mk.inj (Except.ok.inj h)
    exact ⟨rfl, rfl, rfl, hchildren⟩

theorem planLinks_cases {catalog : Catalog} {parent : String} {taken after : Aliases}
    {planned : List PlannedLink} {link : Link} {rest : List Link}
    (h : planLinks catalog parent taken (link :: rest) = .ok (planned, after)) :
    ∃ first middle others, planLink catalog parent taken link = .ok (first, middle) ∧
      planLinks catalog parent middle rest = .ok (others, after) ∧ planned = first :: others := by
  unfold planLinks at h
  obtain ⟨⟨first, middle⟩, hfirst, h⟩ := bind_eq_ok_iff.mp h
  obtain ⟨⟨others, last⟩, hothers, h⟩ := bind_eq_ok_iff.mp h
  obtain ⟨rfl, rfl⟩ := Prod.mk.inj (Except.ok.inj h)
  exact ⟨first, middle, others, hfirst, hothers, rfl⟩

mutual

theorem planLink_aliases {catalog : Catalog} {parent : String} {taken after : Aliases}
    {planned : PlannedLink} : (link : Link) →
    planLink catalog parent taken link = .ok (planned, after) →
    Extends taken after link.explicitAliases (planned.aliases.map Prod.fst)
  | ⟨source, entity, target, kind, alias?, columns, filter, orders, links⟩, h => by
    obtain ⟨-, haliasName, hlink, hchildren⟩ := planLink_cases h
    obtain ⟨aliasName, planned, children⟩ := planned
    subst haliasName hlink
    -- The alias of the link is taken before those of the links inside are looked for.
    exact (extends_allocateMissing taken alias? entity).append (planLinks_aliases links hchildren)

theorem planLinks_aliases {catalog : Catalog} {parent : String} {taken after : Aliases}
    {planned : List PlannedLink} : (links : List Link) →
    planLinks catalog parent taken links = .ok (planned, after) →
    Extends taken after (Link.explicitAliasesAll links)
      ((PlannedLink.aliasesAll planned).map Prod.fst)
  | [], h => by
    unfold planLinks at h
    obtain ⟨rfl, rfl⟩ := Prod.mk.inj (Except.ok.inj h)
    exact Extends.nil taken
  | link :: rest, h => by
    obtain ⟨first, middle, others, hfirst, hothers, rfl⟩ := planLinks_cases h
    have hjoin := (planLink_aliases link hfirst).append (planLinks_aliases rest hothers)
    simpa only [Link.explicitAliasesAll, PlannedLink.aliasesAll, List.map_append] using hjoin

end

theorem ofQuery_spec {catalog : Catalog} {query : Query} {plan : Plan}
    (h : ofQuery catalog query = .ok plan) :
    plan.root = query.entity ∧ catalog.primaryId query.entity = .ok plan.primaryId ∧
      ∃ reserved after, Aliases.empty.reserveAll (Link.explicitAliasesAll query.links) =
          (reserved, .ok ()) ∧
        planLinks catalog query.entity reserved query.links = .ok (plan.links, after) := by
  unfold ofQuery at h
  cases hknows : catalog.knows query.entity with
  | false =>
    simp only [hknows, Bool.not_false, if_true, throw_eq_error, error_bind] at h
    contradiction
  | true =>
    simp only [hknows, Bool.not_true, Bool.false_eq_true, if_false] at h
    obtain ⟨primaryId, hid, h⟩ := bind_eq_ok_iff.mp h
    cases hreserve : Aliases.empty.reserveAll (Link.explicitAliasesAll query.links) with
    | mk reserved outcome =>
      simp only [hreserve] at h
      obtain ⟨⟨⟩, houtcome, h⟩ := bind_eq_ok_iff.mp h
      obtain ⟨⟨links, after⟩, hlinks, h⟩ := bind_eq_ok_iff.mp h
      obtain rfl := Except.ok.inj h
      exact ⟨rfl, hid, reserved, after, by rw [houtcome], hlinks⟩

theorem aliases_nodup {catalog : Catalog} {query : Query} {plan : Plan}
    (h : ofQuery catalog query = .ok plan) : (plan.aliases.map Prod.fst).Nodup := by
  obtain ⟨-, -, reserved, after, hreserve, hlinks⟩ := ofQuery_spec h
  have hgiven := reserveAll_spec (Link.explicitAliasesAll query.links) Aliases.empty
    (by rw [hreserve])
  rw [hreserve] at hgiven
  obtain ⟨htaken, hnodup, -⟩ := hgiven
  obtain ⟨fresh, -, hfresh, hnot, hperm⟩ := planLinks_aliases query.links hlinks
  refine hperm.nodup_iff.mpr (List.nodup_append.mpr ⟨hnodup, hfresh, ?_⟩)
  rintro name hname other hother rfl
  refine hnot name hother ?_
  rw [htaken]
  simpa using Or.inl hname

section Named

variable {catalog : Catalog} {aliasName entity : String}

mutual

theorem planLink_named {parent : String} {taken after : Aliases} {planned : PlannedLink} :
    (link : Link) →
    planLink catalog parent taken link = .ok (planned, after) →
    (∀ inner ∈ link.within, inner.alias?.isSome = true) →
    (aliasName, entity) ∈ planned.aliases →
    ∃ inner ∈ link.within, inner.alias? = some aliasName ∧ entity = inner.entity
  | ⟨source, target, column, kind, alias?, columns, filter, orders, links⟩, h, hnamed, hmem => by
    obtain ⟨-, hname, hlink, hchildren⟩ := planLink_cases h
    obtain ⟨_, _, children⟩ := planned
    subst hname hlink
    rw [Link.within] at hnamed ⊢
    simp only [PlannedLink.aliases, List.mem_cons] at hmem
    rcases hmem with hown | hinner
    · obtain ⟨rfl, rfl⟩ := Prod.mk.inj hown
      have hsome := hnamed _ List.mem_cons_self
      refine ⟨_, List.mem_cons_self, ?_, rfl⟩
      cases alias? with
      | none => contradiction
      | some name => rfl
    · obtain ⟨inner, hwithin, hinner⟩ := planLinks_named links hchildren
        (fun inner hwithin => hnamed inner (List.mem_cons_of_mem _ hwithin)) hinner
      exact ⟨inner, List.mem_cons_of_mem _ hwithin, hinner⟩

theorem planLinks_named {parent : String} {taken after : Aliases} {planned : List PlannedLink} :
    (links : List Link) →
    planLinks catalog parent taken links = .ok (planned, after) →
    (∀ inner ∈ Link.withinAll links, inner.alias?.isSome = true) →
    (aliasName, entity) ∈ PlannedLink.aliasesAll planned →
    ∃ inner ∈ Link.withinAll links, inner.alias? = some aliasName ∧ entity = inner.entity
  | [], h, _, hmem => by
    unfold planLinks at h
    obtain ⟨rfl, rfl⟩ := Prod.mk.inj (Except.ok.inj h)
    contradiction
  | link :: rest, h, hnamed, hmem => by
    obtain ⟨first, middle, others, hfirst, hothers, rfl⟩ := planLinks_cases h
    simp only [Link.withinAll, List.mem_append] at hnamed ⊢
    rw [PlannedLink.aliasesAll, List.mem_append] at hmem
    rcases hmem with hmem | hmem
    · obtain ⟨inner, hwithin, hinner⟩ := planLink_named link hfirst
        (fun inner hwithin => hnamed inner (Or.inl hwithin)) hmem
      exact ⟨inner, Or.inl hwithin, hinner⟩
    · obtain ⟨inner, hwithin, hinner⟩ := planLinks_named rest hothers
        (fun inner hwithin => hnamed inner (Or.inr hwithin)) hmem
      exact ⟨inner, Or.inr hwithin, hinner⟩

end

end Named

theorem exists_link_of_alias {catalog : Catalog} {query : Query} {plan : Plan}
    (h : ofQuery catalog query = .ok plan)
    (hnamed : ∀ link ∈ Link.withinAll query.links, link.alias?.isSome = true)
    {aliasName entity : String} (hmem : (aliasName, entity) ∈ plan.aliases) :
    ∃ link ∈ Link.withinAll query.links, link.alias? = some aliasName ∧ entity = link.entity := by
  obtain ⟨-, -, reserved, after, -, hlinks⟩ := ofQuery_spec h
  exact planLinks_named query.links hlinks hnamed hmem

end Plan

theorem AliasMap.entity_eq_ok {aliases : AliasMap} {aliasName entity : String}
    (hnodup : (aliases.map Prod.fst).Nodup) (h : (aliasName, entity) ∈ aliases) :
    aliases.entity aliasName = .ok entity := by
  have hlookup : List.lookup aliasName aliases = some entity := by
    induction aliases with
    | nil => contradiction
    | cons entry rest ih =>
      obtain ⟨name, target⟩ := entry
      obtain ⟨hname, hrest⟩ := List.nodup_cons.mp hnodup
      rcases List.mem_cons.mp h with heq | hmem
      · obtain ⟨rfl, rfl⟩ := Prod.mk.inj heq
        rw [List.lookup_cons_self]
      · have hne : aliasName ≠ name := by
          rintro rfl
          exact hname (List.mem_map.mpr ⟨_, hmem, rfl⟩)
        rw [List.lookup_cons, beq_false_of_ne hne]
        exact ih hrest hmem
  rw [AliasMap.entity, hlookup]

theorem AliasMap.mem_of_entity_eq_ok {aliases : AliasMap} {aliasName entity : String}
    (h : aliases.entity aliasName = .ok entity) : (aliasName, entity) ∈ aliases := by
  unfold AliasMap.entity at h
  split at h
  · rename_i hlookup
    obtain rfl := Except.ok.inj h
    obtain ⟨front, back, rfl, -⟩ := List.lookup_eq_some_iff.mp hlookup
    exact List.mem_append_right _ List.mem_cons_self
  · contradiction

theorem AliasMap.entity_eq_error {aliases : AliasMap} {name : String} {fault : Error}
    (h : aliases.entity name = .error fault) :
    fault = .name (.unknownAlias name) ∧ ∀ entity, (name, entity) ∉ aliases := by
  unfold AliasMap.entity at h
  split at h
  · contradiction
  · rename_i hlookup
    refine ⟨(Except.error.inj h).symm, ?_⟩
    intro entity hmem
    rw [List.lookup_eq_none_iff] at hlookup
    simpa using hlookup _ hmem

theorem AliasMap.entity_perm {aliases others : AliasMap} (h : others.Perm aliases)
    (hnodup : (aliases.map Prod.fst).Nodup) (name : String) :
    others.entity name = aliases.entity name := by
  have hothers : (others.map Prod.fst).Nodup := (h.map Prod.fst).nodup_iff.mpr hnodup
  cases hfound : aliases.entity name with
  | ok entity => exact entity_eq_ok hothers (h.mem_iff.mpr (mem_of_entity_eq_ok hfound))
  | error fault =>
    obtain ⟨rfl, hnone⟩ := entity_eq_error hfound
    cases hother : AliasMap.entity others name with
    | ok entity => exact absurd (h.mem_iff.mp (mem_of_entity_eq_ok hother)) (hnone entity)
    | error other =>
      obtain ⟨rfl, -⟩ := entity_eq_error hother
      rfl

end RecordQuery
