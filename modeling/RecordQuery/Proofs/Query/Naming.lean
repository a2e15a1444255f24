import RecordQuery.Alias
import RecordQuery.Proofs.Query.Within

namespace RecordQuery.Aliases

theorem reserveAll_eq_ok {names : List String} (hnodup : names.Nodup) (aliases : Aliases)
    (h : ∀ name ∈ names, isValid name = true ∧ name ∉ aliases.taken) :
    (aliases.reserveAll names).2 = .ok () := by
  induction names generalizing aliases with
  | nil => rfl
  | cons name rest ih =>
    obtain ⟨hname, hrest⟩ := List.nodup_cons.mp hnodup
    obtain ⟨hvalid, hfree⟩ := h name List.mem_cons_self
    have hreserve : aliases.reserve name = .ok ⟨name :: aliases.taken⟩ := by
      simp [reserve, hvalid, hfree]
    simp only [reserveAll, hreserve]
    apply ih hrest
    intro other hother
    obtain ⟨hvalidOther, hfreeOther⟩ := h other (List.mem_cons_of_mem _ hother)
    refine ⟨hvalidOther, ?_⟩
    rw [List.mem_cons, not_or]
    refine ⟨?_, hfreeOther⟩
    rintro rfl
    exact hname hother

theorem assign_of_reserveAll {links : List Link}
    (h : (empty.reserveAll (Link.explicitAliasesAll links)).2 = .ok ()) :
    (empty.assign links).2 =
      .ok ((empty.reserveAll (Link.explicitAliasesAll links)).1.nameLinks links).1 := by
  unfold assign
  cases hresult : empty.reserveAll (Link.explicitAliasesAll links) with
  | mk reserved outcome =>
    rw [hresult] at h
    simp only at h
    subst h
    rfl

mutual

theorem nameLink_of_named : (link : Link) → (aliases : Aliases) →
    (∀ inner ∈ link.within, inner.alias?.isSome = true) → aliases.nameLink link = (link, aliases)
  | ⟨source, entity, target, kind, alias?, columns, filter, orders, links⟩, aliases, h => by
    rw [Link.within] at h
    have hown := h _ List.mem_cons_self
    cases alias? with
    | none => contradiction
    | some aliasName =>
      have hlinks := nameLinks_of_named links aliases fun inner hinner =>
        h inner (List.mem_cons_of_mem _ hinner)
      simp only [nameLink, allocateMissing, hlinks]

theorem nameLinks_of_named : (links : List Link) → (aliases : Aliases) →
    (∀ inner ∈ Link.withinAll links, inner.alias?.isSome = true) →
    aliases.nameLinks links = (links, aliases)
  | [], _, _ => rfl
  | link :: rest, aliases, h => by
    simp only [Link.withinAll, List.mem_append] at h
    have hlink := nameLink_of_named link aliases fun inner hinner => h inner (Or.inl hinner)
    have hrest := nameLinks_of_named rest aliases fun inner hinner => h inner (Or.inr hinner)
    simp only [nameLinks, hlink, hrest]

end

mutual

theorem nameLink_filters : (link : Link) → (aliases : Aliases) →
    (aliases.nameLink link).1.within.map (·.filter) = link.within.map (·.filter)
  | ⟨source, entity, target, kind, alias?, columns, filter, orders, links⟩, aliases => by
    simp only [nameLink, Link.within, List.map_cons, nameLinks_filters links]

theorem nameLinks_filters : (links : List Link) → (aliases : Aliases) →
    (Link.withinAll (aliases.nameLinks links).1).map (·.filter) =
      (Link.withinAll links).map (·.filter)
  | [], _ => rfl
  | link :: rest, aliases => by
    simp only [nameLinks, Link.withinAll, List.map_append, nameLink_filters link,
      nameLinks_filters rest]

end

theorem assign_of_named {links : List Link}
    (h : ∀ link ∈ Link.withinAll links, ∃ aliasName, link.alias? = some aliasName ∧
      isValid aliasName = true)
    (hnodup : (Link.explicitAliasesAll links).Nodup) : (empty.assign links).2 = .ok links := by
  have hreserve : (empty.reserveAll (Link.explicitAliasesAll links)).2 = .ok () := by
    apply reserveAll_eq_ok hnodup
    intro name hname
    rw [Link.explicitAliasesAll_eq, List.mem_filterMap] at hname
    obtain ⟨link, hlink, halias⟩ := hname
    obtain ⟨aliasName, hsome, hvalid⟩ := h link hlink
    obtain rfl := Option.some.inj (hsome.symm.trans halias)
    exact ⟨hvalid, List.not_mem_nil⟩
  have hnamed : ∀ link ∈ Link.withinAll links, link.alias?.isSome = true := by
    intro link hlink
    obtain ⟨aliasName, hsome, -⟩ := h link hlink
    rw [hsome]
    rfl
  rw [assign_of_reserveAll hreserve, nameLinks_of_named links _ hnamed]

end RecordQuery.Aliases
