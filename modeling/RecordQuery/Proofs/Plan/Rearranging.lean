import RecordQuery.Proofs.Plan.Splitting

namespace RecordQuery

inductive Link.Moved : List Link → List Link → Prop
  | later (before siblings after : List Link) {link : Link}
      (hexistential : link.kind.isExistential = true) :
      Moved (before ++ link :: (siblings ++ after)) (before ++ (siblings ++ link :: after))
  | earlier (before siblings after : List Link) {link : Link}
      (hexistential : link.kind.isExistential = true) :
      Moved (before ++ (siblings ++ link :: after)) (before ++ link :: (siblings ++ after))
  | inside (before after : List Link) (link : Link) {links : List Link}
      (hmoved : Moved link.links links) :
      Moved (before ++ link :: after) (before ++ { link with links := links } :: after)

namespace PlannedLink

mutual

def asGiven : Link → PlannedLink
  | ⟨source, entity, target, kind, alias?, columns, filter, orders, links⟩ =>
    ⟨alias?.getD entity, ⟨source, entity, target, kind, alias?, columns, filter, orders, links⟩,
      asGivenAll links⟩

def asGivenAll : List Link → List PlannedLink
  | [] => []
  | link :: rest => asGiven link :: asGivenAll rest

end

theorem asGivenAll_append (links others : List Link) :
    asGivenAll (links ++ others) = asGivenAll links ++ asGivenAll others := by
  induction links with
  | nil => rfl
  | cons link rest ih => rw [List.cons_append, asGivenAll, asGivenAll, ih, List.cons_append]

theorem asGiven_eq (link : Link) :
    asGiven link = ⟨link.alias?.getD link.entity, link, asGivenAll link.links⟩ := by
  obtain ⟨source, entity, target, kind, alias?, columns, filter, orders, links⟩ := link
  rw [asGiven]

end PlannedLink

theorem perm_swap {α : Type} (first second third last : List α) :
    (first ++ (third ++ (second ++ last))).Perm (first ++ (second ++ (third ++ last))) := by
  apply List.Perm.append_left
  rw [← List.append_assoc, ← List.append_assoc]
  exact List.perm_append_comm.append_right last

namespace Link.Moved

open PlannedLink

variable {links others : List Link}

theorem within_perm (h : Moved links others) :
    ((withinAll others).map fun link => (link.alias?, link.entity)).Perm
      ((withinAll links).map fun link => (link.alias?, link.entity)) := by
  induction h with
  | later before siblings after _ =>
    simp only [withinAll_append, withinAll, List.map_append]
    exact perm_swap _ _ _ _
  | earlier before siblings after _ =>
    simp only [withinAll_append, withinAll, List.map_append]
    exact perm_swap _ _ _ _
  | inside before after link _ ih =>
    simp only [withinAll_append, withinAll, within_eq, List.map_append, List.map_cons]
    exact ((ih.cons _).append_right _).append_left _

theorem explicitAliasesAll_perm (h : Moved links others) :
    (explicitAliasesAll others).Perm (explicitAliasesAll links) := by
  have hperm := h.within_perm.filterMap Prod.fst
  rw [List.filterMap_map, List.filterMap_map] at hperm
  rw [explicitAliasesAll_eq, explicitAliasesAll_eq]
  exact hperm

end Link.Moved

namespace PlannedLink

mutual

theorem aliases_asGiven : (link : Link) → (asGiven link).aliases =
    link.within.map fun inner => (inner.alias?.getD inner.entity, inner.entity)
  | ⟨source, entity, target, kind, alias?, columns, filter, orders, links⟩ => by
    rw [asGiven, aliases, Link.within, List.map_cons, aliasesAll_asGivenAll links]

theorem aliasesAll_asGivenAll : (links : List Link) → aliasesAll (asGivenAll links) =
    (Link.withinAll links).map fun inner => (inner.alias?.getD inner.entity, inner.entity)
  | [] => rfl
  | link :: rest => by
    rw [asGivenAll, aliasesAll, Link.withinAll, List.map_append, aliases_asGiven link,
      aliasesAll_asGivenAll rest]

end

theorem aliasesAll_perm {links others : List Link} (h : Link.Moved links others) :
    (aliasesAll (asGivenAll others)).Perm (aliasesAll (asGivenAll links)) := by
  have hperm := h.within_perm.map fun entry => (entry.1.getD entry.2, entry.2)
  rw [List.map_map, List.map_map] at hperm
  rw [aliasesAll_asGivenAll, aliasesAll_asGivenAll]
  exact hperm

end PlannedLink

namespace Plan

open PlannedLink

variable {catalog : Catalog}

mutual

theorem planLink_asGiven {parent : String} {taken after : Aliases} {planned : PlannedLink} :
    (link : Link) → planLink catalog parent taken link = .ok (planned, after) →
    (∀ inner ∈ link.within, inner.alias?.isSome = true) → planned = asGiven link
  | ⟨source, entity, target, kind, alias?, columns, filter, orders, links⟩, h, hnamed => by
    obtain ⟨-, haliasName, hlink, hchildren⟩ := planLink_cases h
    obtain ⟨aliasName, planned, children⟩ := planned
    subst haliasName hlink
    rw [Link.within] at hnamed
    have hown := hnamed _ List.mem_cons_self
    obtain rfl := planLinks_asGiven links hchildren
      fun inner hinner => hnamed inner (List.mem_cons_of_mem _ hinner)
    cases alias? with
    | none => contradiction
    | some aliasName => rfl

theorem planLinks_asGiven {parent : String} {taken after : Aliases} {planned : List PlannedLink} :
    (links : List Link) → planLinks catalog parent taken links = .ok (planned, after) →
    (∀ inner ∈ Link.withinAll links, inner.alias?.isSome = true) → planned = asGivenAll links
  | [], h, _ => by
    unfold planLinks at h
    obtain ⟨rfl, -⟩ := Prod.mk.inj (Except.ok.inj h)
    rfl
  | link :: rest, h, hnamed => by
    obtain ⟨first, middle, others, hfirst, hothers, rfl⟩ := planLinks_cases h
    simp only [Link.withinAll, List.mem_append] at hnamed
    rw [asGivenAll, planLink_asGiven link hfirst fun inner hinner => hnamed inner (Or.inl hinner),
      planLinks_asGiven rest hothers fun inner hinner => hnamed inner (Or.inr hinner)]

end

def Plannable (catalog : Catalog) (parent : String) (links : List Link) : Prop :=
  ∀ taken, planLinks catalog parent taken links = .ok (asGivenAll links, taken)

theorem plannable_of_planLinks {parent : String} {taken after : Aliases}
    {planned : List PlannedLink} {links : List Link}
    (h : planLinks catalog parent taken links = .ok (planned, after))
    (hnamed : ∀ inner ∈ Link.withinAll links, inner.alias?.isSome = true) :
    Plannable catalog parent links := by
  intro taken'
  have hnames : (taken'.nameLinks links).1 = (taken.nameLinks links).1 := by
    rw [Aliases.nameLinks_of_named links _ hnamed, Aliases.nameLinks_of_named links _ hnamed]
  obtain ⟨⟨again, last⟩, hagain, rfl⟩ := (planLinks_names links parent hnames).ok _ h
  obtain rfl := planLinks_taken links hagain
  rw [hagain, planLinks_asGiven links hagain hnamed, Aliases.nameLinks_of_named links _ hnamed]

theorem Plannable.append {parent : String} {links others : List Link}
    (h : Plannable catalog parent links) (hothers : Plannable catalog parent others) :
    Plannable catalog parent (links ++ others) := by
  intro taken
  simp only [planLinks_append, h taken, hothers taken, ok_bind, pure_eq_ok, asGivenAll_append]

theorem Plannable.of_append {parent : String} {links others : List Link}
    (h : Plannable catalog parent (links ++ others))
    (hnamed : ∀ inner ∈ Link.withinAll (links ++ others), inner.alias?.isSome = true) :
    Plannable catalog parent links ∧ Plannable catalog parent others := by
  simp only [Link.withinAll_append, List.mem_append] at hnamed
  have hboth := h Aliases.empty
  rw [planLinks_append] at hboth
  obtain ⟨⟨first, middle⟩, hfirst, hboth⟩ := bind_eq_ok_iff.mp hboth
  obtain ⟨⟨second, last⟩, hsecond, -⟩ := bind_eq_ok_iff.mp hboth
  exact ⟨plannable_of_planLinks hfirst fun inner hinner => hnamed inner (Or.inl hinner),
    plannable_of_planLinks hsecond fun inner hinner => hnamed inner (Or.inr hinner)⟩

theorem Plannable.of_cons {parent : String} {link : Link} {rest : List Link}
    (h : Plannable catalog parent (link :: rest))
    (hnamed : ∀ inner ∈ Link.withinAll (link :: rest), inner.alias?.isSome = true) :
    Plannable catalog parent [link] ∧ Plannable catalog parent rest :=
  of_append h hnamed

theorem plannable_inside {parent : String} {link : Link} {links : List Link}
    (hnamed : ∀ inner ∈ link.within, inner.alias?.isSome = true)
    (h : Plannable catalog parent [link])
    (hlinks : Plannable catalog link.entity link.links → Plannable catalog link.entity links) :
    Plannable catalog parent [{ link with links := links }] := by
  obtain ⟨source, entity, target, kind, alias?, columns, filter, orders, inner⟩ := link
  rw [Link.within] at hnamed
  have hown := hnamed _ List.mem_cons_self
  intro taken
  obtain ⟨first, middle, others, hfirst, -, -⟩ := planLinks_cases (h taken)
  obtain ⟨hknows, -, -, hinner⟩ := planLink_cases hfirst
  have hchildren := hlinks (plannable_of_planLinks hinner fun inner hinner =>
    hnamed inner (List.mem_cons_of_mem _ hinner))
  cases alias? with
  | none => contradiction
  | some aliasName =>
    simp only at hknows hchildren
    simp only [planLink, hknows, Bool.not_true, Bool.false_eq_true, if_false] at hfirst
    obtain ⟨_, hsource, hfirst⟩ := bind_eq_ok_iff.mp hfirst
    obtain ⟨_, htarget, -⟩ := bind_eq_ok_iff.mp hfirst
    simp only [planLinks, planLink, hknows, hsource, htarget, hchildren taken, ok_bind, pure_eq_ok,
      Bool.not_true, Bool.false_eq_true, if_false, Aliases.allocateMissing]
    rfl

theorem Plannable.moved {links others : List Link} (hmoved : Link.Moved links others)
    {parent : String} (hnamed : ∀ inner ∈ Link.withinAll links, inner.alias?.isSome = true)
    (h : Plannable catalog parent links) : Plannable catalog parent others := by
  induction hmoved generalizing parent with
  | later before siblings after _ =>
    obtain ⟨hbefore, hrest⟩ := h.of_append hnamed
    simp only [Link.withinAll_append, List.mem_append] at hnamed
    obtain ⟨hlink, hrest⟩ := hrest.of_cons fun inner hinner => hnamed inner (Or.inr hinner)
    simp only [Link.withinAll, Link.withinAll_append, List.mem_append] at hnamed
    obtain ⟨hsiblings, hafter⟩ := hrest.of_append fun inner hinner =>
      hnamed inner (Or.inr (Or.inr (by simpa [Link.withinAll_append] using hinner)))
    exact hbefore.append (hsiblings.append (hlink.append hafter))
  | earlier before siblings after _ =>
    obtain ⟨hbefore, hrest⟩ := h.of_append hnamed
    simp only [Link.withinAll_append, List.mem_append] at hnamed
    obtain ⟨hsiblings, hrest⟩ := hrest.of_append fun inner hinner =>
      hnamed inner (Or.inr (by simpa [Link.withinAll_append] using hinner))
    obtain ⟨hlink, hafter⟩ := hrest.of_cons fun inner hinner =>
      hnamed inner (Or.inr (Or.inr hinner))
    exact hbefore.append (hlink.append (hsiblings.append hafter))
  | inside before after link _ ih =>
    obtain ⟨hbefore, hrest⟩ := h.of_append hnamed
    simp only [Link.withinAll_append, List.mem_append] at hnamed
    obtain ⟨hlink, hafter⟩ := hrest.of_cons fun inner hinner => hnamed inner (Or.inr hinner)
    simp only [Link.withinAll, List.mem_append] at hnamed
    have hwithin : ∀ inner ∈ link.within, inner.alias?.isSome = true :=
      fun inner hinner => hnamed inner (Or.inr (Or.inl hinner))
    refine hbefore.append ((plannable_inside hwithin hlink (ih ?_)).append hafter)
    intro inner hinner
    rw [Link.within_eq] at hwithin
    exact hwithin inner (List.mem_cons_of_mem _ hinner)

theorem ofQuery_moved {query : Query} {plan : Plan} {others : List Link}
    (hmoved : Link.Moved query.links others)
    (hnamed : ∀ link ∈ Link.withinAll query.links, link.alias?.isSome = true)
    (hplan : ofQuery catalog query = .ok plan) :
    plan.links = asGivenAll query.links ∧
      ofQuery catalog { query with links := others } =
        .ok { plan with links := asGivenAll others } := by
  obtain ⟨-, -, reserved, after, hreserve, hlinks⟩ := ofQuery_spec hplan
  refine ⟨planLinks_asGiven query.links hlinks hnamed, ?_⟩
  have hreserved := Aliases.reserveAll_spec (Link.explicitAliasesAll query.links) Aliases.empty
    (by rw [hreserve])
  obtain ⟨-, hnodup, hvalid⟩ := hreserved
  have hperm := hmoved.explicitAliasesAll_perm
  have hothers := Aliases.reserveAll_eq_ok (hperm.nodup_iff.mpr hnodup) Aliases.empty
    fun name hname => ⟨(hvalid name (hperm.subset hname)).2, List.not_mem_nil⟩
  have hplannable := (plannable_of_planLinks hlinks hnamed).moved hmoved hnamed
  refine ofQuery_with hplan ?_ (hplannable (Link.reserved others))
  rw [← hothers]
  rfl

end Plan

end RecordQuery
