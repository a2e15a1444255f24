import RecordQuery.Proofs.Relation.Commuting
import RecordQuery.Proofs.Relation.Complement

namespace RecordQuery

namespace Link.Moved

open PlannedLink

variable {links others : List Link}

theorem mergedAll_showsAlike (h : Moved links others) :
    List.Forall₂ Context.ShowsAlike (mergedAll (asGivenAll links))
      (mergedAll (asGivenAll others)) := by
  have hsame : ∀ {first second : List PlannedLink}, second = first →
      List.Forall₂ Context.ShowsAlike first second := Context.ShowsAlike.refl_of_eq
  have hnothing : ∀ {link : Link}, link.kind.isExistential = true → (asGiven link).merged = [] := by
    intro link hexistential
    rw [asGiven_eq, merged, if_pos hexistential]
  induction h with
  | later before siblings after hexistential =>
    apply hsame
    simp only [asGivenAll_append, asGivenAll, mergedAll_append, mergedAll, hnothing hexistential,
      List.nil_append]
  | earlier before siblings after hexistential =>
    apply hsame
    simp only [asGivenAll_append, asGivenAll, mergedAll_append, mergedAll, hnothing hexistential,
      List.nil_append]
  | inside before after link hinside ih =>
    simp only [asGivenAll_append, asGivenAll, mergedAll_append, mergedAll]
    refine List.rel_append (hsame rfl) (List.rel_append ?_ (hsame rfl))
    rw [asGiven_eq, asGiven_eq, merged, merged]
    dsimp only
    split
    · exact .nil
    · exact .cons ⟨rfl, rfl, rfl, rfl⟩ ih

end Link.Moved

theorem Plan.separate_of_ofQuery {catalog : Catalog} {query : Query} {plan : Plan}
    (h : ofQuery catalog query = .ok plan)
    (hnamed : ∀ link ∈ Link.withinAll query.links, link.alias?.isSome = true)
    (hsources : ∀ link ∈ Link.withinAll query.links, Record.isQualified link.source = false) :
    Link.Separate none query.links := by
  obtain ⟨-, -, reserved, after, hreserve, -⟩ := ofQuery_spec h
  obtain ⟨-, hnodup, hvalid⟩ := Aliases.reserveAll_spec (Link.explicitAliasesAll query.links)
    Aliases.empty (by rw [hreserve])
  exact ⟨hnamed, hnodup, fun name hname => Aliases.not_isQualified_of_isValid (hvalid name hname).2,
    hsources, fun name hname => nomatch hname⟩

namespace Context

open PlannedLink (asGivenAll)

variable {context : Context} {query : Query} {result : QueryResult} {others : List Link}

theorem matchingRows_moved {plan : Plan} (hmoved : Link.Moved query.links others)
    (hlinks : plan.links = asGivenAll query.links)
    (hentity : ∀ name,
      AliasMap.entity ({ plan with links := asGivenAll others } : Plan).aliases name =
        AliasMap.entity plan.aliases name)
    (hseparate : Link.Separate none query.links) (criteria : Predicate) :
    Repeats (¬ Link.Calm query.links) (context.matchingRows plan criteria)
      (context.matchingRows { plan with links := asGivenAll others } criteria) := by
  have haliases : context.matchingRows { plan with links := asGivenAll others } criteria =
      context.finish plan.aliases [criteria] (asGivenAll others)
        (.scan context.store plan.root plan.primaryId) := by
    rw [matchingRows_eq_finish]
    apply Carries.eq
    apply finish_carries (Predicate.Alike.refl criteria)
    exact PlannedLink.carryAll_self none _ fun step _ name _ => hentity name
  rw [haliases, matchingRows_eq_finish, hlinks]
  apply (joinLinks_moved hmoved hseparate _ _).bind
  exact fun answer => Repeats.refl _

/-- An existential link may be moved among its siblings: a query that has an answer has the same
one after it, unless a local day outside of the calendar is asked for; and there is no such day if
no existential link has a filter by days. -/
theorem run_moved (hmoved : Link.Moved query.links others)
    (hnamed : ∀ link ∈ Link.withinAll query.links, link.alias?.isSome = true)
    (hsources : ∀ link ∈ Link.withinAll query.links, Record.isQualified link.source = false)
    (hrun : context.run query = .ok result) :
    (context.run (query.withLinks others) = .ok result ∨
      context.run (query.withLinks others) = .error .overflow) ∧
    ((∀ link ∈ Link.withinAll query.links, link.kind.isExistential = true →
        ∀ inner ∈ link.within, ∀ condition ∈ inner.filter.conditionsWithin,
          condition.operator.asksDay = false) →
      context.run (query.withLinks others) = .ok result) := by
  suffices hrepeats : Repeats (¬ Link.Calm query.links) (context.run query)
      (context.run (query.withLinks others)) by
    rcases hrepeats result hrun with hsame | ⟨hday, hfault⟩
    · exact ⟨Or.inl hsame, fun _ => hsame⟩
    · exact ⟨Or.inr hfault, fun hcalm => absurd hcalm hday⟩
  obtain ⟨plan, hplan, -⟩ := bind_eq_ok_iff.mp hrun
  obtain ⟨hlinks, hother⟩ := Plan.ofQuery_moved hmoved hnamed hplan
  have hentity : ∀ name, AliasMap.entity
      ({ plan with links := asGivenAll others } : Plan).aliases name =
        AliasMap.entity plan.aliases name := by
    apply AliasMap.entity_perm _ (Plan.aliases_nodup hplan)
    rw [Plan.aliases, Plan.aliases, hlinks]
    exact PlannedLink.aliasesAll_perm hmoved
  have hcriteria : query.criteria.compile context
      ({ plan with links := asGivenAll others } : Plan).aliases (.root query.entity) =
        query.criteria.compile context plan.aliases (.root query.entity) :=
    Filter.compile_mentions query.criteria (fun name _ => hentity name) _
  have hshows : List.Forall₂ ShowsAlike plan.mergedLinks
      ({ plan with links := asGivenAll others } : Plan).mergedLinks := by
    rw [Plan.mergedLinks, Plan.mergedLinks, hlinks]
    exact hmoved.mergedAll_showsAlike
  have hshape : context.shape (query.withLinks others) { plan with links := asGivenAll others } =
      context.shape query plan := shape_congr rfl hshows rfl rfl rfl rfl hentity
  unfold run
  rw [show Plan.ofQuery context.catalog (query.withLinks others) =
    .ok { plan with links := asGivenAll others } from hother, hplan, ok_bind, ok_bind,
    show (query.withLinks others).criteria = query.criteria from rfl,
    show (query.withLinks others).entity = query.entity from rfl, hcriteria]
  apply (Repeats.refl _).bind
  intro criteria
  rw [hshape]
  apply (Repeats.refl _).bind
  intro shape
  apply (matchingRows_moved hmoved hlinks hentity
    (Plan.separate_of_ofQuery hplan hnamed hsources) criteria).bind
  intro relation
  exact Repeats.refl _

def toNamesake : Link :=
  ⟨"accountid", "contact", "contactid", .inner, some "namesake", .none, .all, [], []⟩

def toOwned : Link :=
  ⟨"accountid", "contact", "accountid", .any, some "contact", .none, .all, [], []⟩

def toSince (day : Instant) : Link :=
  ⟨"accountid", "account", "accountid", .any, some "same", .none,
    ⟨.and, [⟨"since", none, .on false, [.dateTime day], none, false⟩], []⟩, [], []⟩

theorem run_moved_contacts :
    sinceLeast.run ((Query.ofEntity "account").withLinks [toNamesake, toOwned]) =
        .ok ⟨[], none, false⟩ ∧
      sinceLeast.run ((Query.ofEntity "account").withLinks [toOwned, toNamesake]) =
        .ok ⟨[], none, false⟩ := by
  have hfirst : sinceLeast.run ((Query.ofEntity "account").withLinks [toNamesake, toOwned]) =
      .ok ⟨[], none, false⟩ := rfl
  refine ⟨hfirst, ?_⟩
  have hmoved : Link.Moved [toNamesake, toOwned] [toOwned, toNamesake] :=
    .earlier [] [toNamesake] [] rfl
  exact (run_moved hmoved (by decide) (by decide) hfirst).2 (by decide)

theorem exists_moved_overflow :
    ¬ ∀ (context : Context) (query : Query) (others : List Link) (result : QueryResult),
      Link.Moved query.links others →
      (∀ link ∈ Link.withinAll query.links, link.alias?.isSome = true) →
      (∀ link ∈ Link.withinAll query.links, Record.isQualified link.source = false) →
      context.run query = .ok result → context.run (query.withLinks others) = .ok result := by
  intro h
  have hfirst : sinceLeast.run ((Query.ofEntity "account").withLinks
      [toNamesake, toSince .greatest]) = .ok ⟨[], none, false⟩ := rfl
  have hfault : sinceLeast.run ((Query.ofEntity "account").withLinks
      [toSince .greatest, toNamesake]) = .error .overflow := rfl
  have hmoved : Link.Moved [toNamesake, toSince .greatest] [toSince .greatest, toNamesake] :=
    .earlier [] [toNamesake] [] rfl
  have hsame := h _ _ _ _ hmoved (by decide) (by decide) hfirst
  exact absurd (hfault.symm.trans hsame) (by simp)

end Context

end RecordQuery
