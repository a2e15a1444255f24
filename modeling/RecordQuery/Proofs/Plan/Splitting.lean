import RecordQuery.Proofs.Plan.Pairing
import RecordQuery.Proofs.Query.Naming

namespace RecordQuery

theorem Link.explicitAliasesAll_append (links others : List Link) :
    explicitAliasesAll (links ++ others) =
      explicitAliasesAll links ++ explicitAliasesAll others := by
  induction links with
  | nil => rfl
  | cons link rest ih =>
    rw [List.cons_append, explicitAliasesAll, explicitAliasesAll, ih, List.append_assoc]

def Link.withKind (link : Link) (kind : JoinKind) : Link := { link with kind }

def PlannedLink.withKind (planned : PlannedLink) (kind : JoinKind) : PlannedLink :=
  { planned with link := planned.link.withKind kind }

namespace PlannedLink

theorem aliasesAll_append (links others : List PlannedLink) :
    aliasesAll (links ++ others) = aliasesAll links ++ aliasesAll others := by
  induction links with
  | nil => rfl
  | cons planned rest ih => rw [List.cons_append, aliasesAll, aliasesAll, ih, List.append_assoc]

theorem mergedAll_append (links others : List PlannedLink) :
    mergedAll (links ++ others) = mergedAll links ++ mergedAll others := by
  induction links with
  | nil => rfl
  | cons planned rest ih => rw [List.cons_append, mergedAll, mergedAll, ih, List.append_assoc]

theorem aliases_withKind (planned : PlannedLink) (kind : JoinKind) :
    (planned.withKind kind).aliases = planned.aliases := by
  obtain ⟨aliasName, link, children⟩ := planned
  rfl

end PlannedLink

namespace Plan

variable {catalog : Catalog} {parent : String}

theorem planLinks_append (taken : Aliases) (links others : List Link) :
    planLinks catalog parent taken (links ++ others) = (do
      let (first, middle) ← planLinks catalog parent taken links
      let (second, last) ← planLinks catalog parent middle others
      return (first ++ second, last)) := by
  induction links generalizing taken with
  | nil =>
    simp only [List.nil_append, planLinks, pure_eq_ok, ok_bind]
    cases planLinks catalog parent taken others <;> rfl
  | cons link rest ih =>
    rw [List.cons_append, planLinks, planLinks]
    cases planLink catalog parent taken link with
    | error fault => rfl
    | ok answer =>
      obtain ⟨planned, middle⟩ := answer
      simp only [ok_bind, ih]
      cases planLinks catalog parent middle rest with
      | error fault => rfl
      | ok answer =>
        obtain ⟨first, last⟩ := answer
        simp only [ok_bind, pure_eq_ok]
        cases planLinks catalog parent last others <;> rfl

theorem planLink_withKind (taken : Aliases) (link : Link) (kind : JoinKind) :
    planLink catalog parent taken (link.withKind kind) =
      (planLink catalog parent taken link).map fun answer =>
        (answer.1.withKind kind, answer.2) := by
  obtain ⟨source, entity, target, kind', alias?, columns, filter, orders, links⟩ := link
  unfold Link.withKind planLink
  cases catalog.knows entity with
  | false => rfl
  | true =>
    simp only [Bool.not_true, Bool.false_eq_true, if_false, bind_map]
    rfl

mutual

theorem planLink_names {taken taken' : Aliases} : (link : Link) → (parent : String) →
    (taken'.nameLink link).1 = (taken.nameLink link).1 →
    Carries True (fun first second => second.1 = first.1) (planLink catalog parent taken link)
      (planLink catalog parent taken' link)
  | ⟨source, entity, target, kind, alias?, columns, filter, orders, links⟩, parent, h => by
    unfold Aliases.nameLink at h
    simp only [Link.mk.injEq, Option.some.injEq, true_and] at h
    obtain ⟨hname, hinner⟩ := h
    unfold planLink
    cases catalog.knows entity with
    | false => exact Carries.of_error _
    | true =>
      simp only [Bool.not_true, Bool.false_eq_true, if_false, hname]
      apply Carries.bind (R := Eq) (Carries.of_eq rfl)
      rintro _ _ -
      apply Carries.bind (R := Eq) (Carries.of_eq rfl)
      rintro _ _ -
      apply (planLinks_names links entity hinner).bind
      rintro first second hchildren
      apply Carries.of_ok
      rw [hchildren]

theorem planLinks_names {taken taken' : Aliases} : (links : List Link) → (parent : String) →
    (taken'.nameLinks links).1 = (taken.nameLinks links).1 →
    Carries True (fun first second => second.1 = first.1) (planLinks catalog parent taken links)
      (planLinks catalog parent taken' links)
  | [], _, _ => Carries.of_ok rfl
  | link :: rest, parent, h => by
    unfold Aliases.nameLinks at h
    obtain ⟨hfirst, hrest⟩ := List.cons.inj h
    unfold planLinks
    apply (planLink_names link parent hfirst).with_ok.bind
    rintro ⟨planned, after⟩ ⟨_, after'⟩ ⟨hok, hok', rfl⟩
    obtain rfl := planLink_taken link hok
    obtain rfl := planLink_taken link hok'
    apply (planLinks_names rest parent hrest).bind
    rintro first second hothers
    apply Carries.of_ok
    rw [hothers]

end

section Query

variable {query : Query} {plan : Plan} {before after : List Link} {link : Link}

theorem ofQuery_with {links : List Link} {planned : List PlannedLink} {reserved last : Aliases}
    (hplan : ofQuery catalog query = .ok plan)
    (hreserve : Aliases.empty.reserveAll (Link.explicitAliasesAll links) = (reserved, .ok ()))
    (hlinks : planLinks catalog query.entity reserved links = .ok (planned, last)) :
    ofQuery catalog { query with links := links } = .ok { plan with links := planned } := by
  obtain ⟨hroot, hid, -⟩ := ofQuery_spec hplan
  unfold ofQuery at hplan ⊢
  cases hknows : catalog.knows query.entity with
  | false =>
    simp only [hknows, Bool.not_false, if_true, throw_eq_error, error_bind] at hplan
    contradiction
  | true =>
    simp only [Bool.not_true, Bool.false_eq_true, if_false, hid, hreserve, hlinks, ok_bind,
      pure_eq_ok]
    rw [← hroot]

structure Parts (catalog : Catalog) (query : Query) (before : List Link) (link : Link)
    (after : List Link) where
  reserved : Aliases
  middle : Aliases
  rest : Aliases
  final : Aliases
  first : List PlannedLink
  planned : PlannedLink
  last : List PlannedLink
  links : query.links = before ++ link :: after
  reserve : Aliases.empty.reserveAll (Link.explicitAliasesAll query.links) = (reserved, .ok ())
  planFirst : planLinks catalog query.entity reserved before = .ok (first, middle)
  planLink : planLink catalog query.entity middle link = .ok (planned, rest)
  planLast : planLinks catalog query.entity rest after = .ok (last, final)

theorem exists_parts (hlinks : query.links = before ++ link :: after)
    (hplan : ofQuery catalog query = .ok plan) :
    ∃ parts : Parts catalog query before link after,
      plan.links = parts.first ++ parts.planned :: parts.last := by
  obtain ⟨-, -, reserved, final, hreserve, hplanned⟩ := ofQuery_spec hplan
  rw [hlinks, planLinks_append] at hplanned
  obtain ⟨⟨first, middle⟩, hfirst, hplanned⟩ := bind_eq_ok_iff.mp hplanned
  obtain ⟨⟨others, _⟩, hothers, hplanned⟩ := bind_eq_ok_iff.mp hplanned
  obtain ⟨planned, rest, last, hlink, hlast, rfl⟩ := planLinks_cases hothers
  obtain ⟨hsplit, rfl⟩ := Prod.mk.inj (Except.ok.inj hplanned)
  exact ⟨⟨reserved, middle, rest, _, first, planned, last, hlinks, hreserve, hfirst, hlink, hlast⟩,
    hsplit.symm⟩

namespace Parts

variable (parts : Parts catalog query before link after)

include parts in
theorem reserve_without : Aliases.empty.reserveAll (Link.explicitAliasesAll (before ++ after)) =
    (Link.reserved (before ++ after), .ok ()) := by
  have hall := Aliases.reserveAll_spec (Link.explicitAliasesAll query.links) Aliases.empty
    (by rw [parts.reserve])
  obtain ⟨-, hnodup, hvalid⟩ := hall
  have hsublist : (Link.explicitAliasesAll (before ++ after)).Sublist
      (Link.explicitAliasesAll query.links) := by
    rw [parts.links, Link.explicitAliasesAll_append, Link.explicitAliasesAll_append,
      Link.explicitAliasesAll]
    exact (List.sublist_append_right _ _).append_left _
  have hok := Aliases.reserveAll_eq_ok (hnodup.sublist hsublist) Aliases.empty fun name hname =>
    ⟨(hvalid name (hsublist.subset hname)).2, (hvalid name (hsublist.subset hname)).1⟩
  rw [← hok]
  rfl

theorem ofQuery_withKind (hplan : ofQuery catalog query = .ok plan) (kind : JoinKind) :
    ofQuery catalog { query with links := before ++ link.withKind kind :: after } =
      .ok { plan with links := parts.first ++ parts.planned.withKind kind :: parts.last } := by
  have haliases : Link.explicitAliasesAll (before ++ link.withKind kind :: after) =
      Link.explicitAliasesAll query.links := by
    obtain ⟨source, entity, target, _, alias?, columns, filter, orders, links⟩ := link
    rw [parts.links, Link.explicitAliasesAll_append, Link.explicitAliasesAll_append]
    rfl
  have hplanned : planLinks catalog query.entity parts.reserved
      (before ++ link.withKind kind :: after) =
      .ok (parts.first ++ parts.planned.withKind kind :: parts.last, parts.final) := by
    simp only [planLinks_append, parts.planFirst, ok_bind, planLinks, planLink_withKind,
      parts.planLink, Except.map, parts.planLast, pure_eq_ok]
  exact ofQuery_with hplan (haliases ▸ parts.reserve) hplanned

theorem ofQuery_without (hplan : ofQuery catalog query = .ok plan)
    (hnamed : ∀ inner ∈ link.within, inner.alias?.isSome = true)
    (hnames : ((Link.reserved query.links).nameLinks (before ++ after)).1 =
      ((Link.reserved (before ++ after)).nameLinks (before ++ after)).1) :
    ofQuery catalog { query with links := before ++ after } =
      .ok { plan with links := parts.first ++ parts.last } := by
  have hrest : parts.rest = parts.middle := by
    rw [planLink_taken link parts.planLink, Aliases.nameLink_of_named link _ hnamed]
  have hreserved : Link.reserved query.links = parts.reserved := by
    rw [Link.reserved, parts.reserve]
  have hplanned : planLinks catalog query.entity (Link.reserved query.links) (before ++ after) =
      .ok (parts.first ++ parts.last, parts.final) := by
    have hlast := parts.planLast
    rw [hrest] at hlast
    simp only [hreserved, planLinks_append, parts.planFirst, ok_bind, hlast, pure_eq_ok]
  obtain ⟨⟨others, final⟩, hothers, rfl⟩ :=
    (planLinks_names (before ++ after) query.entity hnames.symm).ok _ hplanned
  exact ofQuery_with hplan parts.reserve_without hothers

theorem aliases_perm (hnamed : ∀ inner ∈ link.within, inner.alias?.isSome = true) :
    (parts.planned.aliases.map Prod.fst).Perm link.explicitAliases := by
  obtain ⟨fresh, hafter, -, -, hperm⟩ := planLink_aliases link parts.planLink
  have hnone : fresh = [] := by
    rw [planLink_taken link parts.planLink, Aliases.nameLink_of_named link _ hnamed] at hafter
    simpa using congrArg List.length hafter
  rwa [hnone, List.append_nil] at hperm

end Parts

end Query

end Plan

end RecordQuery
