import RecordQuery.Proofs.Plan.Pairing
import RecordQuery.Proofs.Query.Mentions
import RecordQuery.Proofs.Relation.Likeness

namespace RecordQuery

namespace PlannedLink

variable {strict : Prop} {context : Context} {aliases others : AliasMap}
  {R : String → Link → Link → Prop}

mutual

theorem Pairs.carriesTo : (planned other : PlannedLink) → planned.Pairs R other →
    (∀ aliasName link other, (aliasName, link.entity) ∈ planned.aliases →
      R aliasName link other → other.entity = link.entity →
      link.CarriesTo strict context aliases others Eq aliasName other) →
    planned.CarriesTo strict context aliases others Eq other
  | ⟨aliasName, link, children⟩, ⟨_, other, inner⟩, ⟨rfl, hentity, hR, hchildren⟩, hcarries => by
    simp only [PlannedLink.aliases, List.mem_cons] at hcarries
    refine ⟨rfl, hcarries _ link other (Or.inl rfl) hR hentity, ?_⟩
    rw [ite_self]
    exact PairsAll.carryAll children inner hchildren
      fun name link other hmem => hcarries name link other (Or.inr hmem)

theorem PairsAll.carryAll : (links tail : List PlannedLink) → PairsAll R links tail →
    (∀ aliasName link other, (aliasName, link.entity) ∈ aliasesAll links →
      R aliasName link other → other.entity = link.entity →
      link.CarriesTo strict context aliases others Eq aliasName other) →
    CarryAll strict context aliases others Eq links tail
  | [], _, h, _ => by
    rw [show _ = [] from h]
    trivial
  | planned :: rest, _, ⟨other, tail, hcons, hfirst, hrest⟩, hcarries => by
    simp only [PlannedLink.aliasesAll, List.mem_append] at hcarries
    rw [hcons]
    exact ⟨Pairs.carriesTo planned other hfirst
        fun name link other hmem => hcarries name link other (Or.inl hmem),
      PairsAll.carryAll rest tail hrest
        fun name link other hmem => hcarries name link other (Or.inr hmem)⟩

end

end PlannedLink

namespace Context

variable {strict : Prop} {context : Context} {query other : Query}

def SelectsAlike (first second : PlannedLink) : Prop :=
  second.aliasName = first.aliasName ∧ second.link.entity = first.link.entity ∧
    second.link.columns = first.link.columns

def ShowsAlike (first second : PlannedLink) : Prop :=
  second.aliasName = first.aliasName ∧ second.link.entity = first.link.entity ∧
    second.link.columns = first.link.columns ∧ second.link.orders = first.link.orders

theorem aggregateColumns_congr {plan plan' : Plan} (hentity : other.entity = query.entity)
    (hcolumns : other.columns = query.columns)
    (hlinks : List.Forall₂ SelectsAlike plan.mergedLinks plan'.mergedLinks) :
    context.aggregateColumns other plan' = context.aggregateColumns query plan := by
  unfold aggregateColumns
  rw [hentity, hcolumns]
  congr 1
  funext own
  congr 1
  apply mapM_eq_of_forall₂
  apply hlinks.imp
  rintro first second ⟨hname, hlink, hcolumns⟩
  rw [hname, hlink, hcolumns]

section Shape

variable {plan plan' : Plan} (hentity : other.entity = query.entity)
  (hlinks : List.Forall₂ ShowsAlike plan.mergedLinks plan'.mergedLinks)

include hentity hlinks

theorem sortKeys_congr (horders : other.orders = query.orders)
    (haliases : ∀ order ∈ query.orders ++ plan.mergedLinks.flatMap (·.link.orders),
      ∀ name ∈ order.mentions,
        AliasMap.entity plan'.aliases name = AliasMap.entity plan.aliases name) :
    context.sortKeys other plan' = context.sortKeys query plan := by
  have hkeys : ∀ orders : List OrderBy,
      orders ⊆ query.orders ++ plan.mergedLinks.flatMap (·.link.orders) → ∀ scope,
      orders.mapM (context.sortKey plan'.aliases scope) =
        orders.mapM (context.sortKey plan.aliases scope) := by
    intro orders hsubset scope
    apply mapM_eq_of_forall₂
    rw [List.forall₂_same]
    intro order horder
    rw [sortKey, sortKey, Scope.aliased_congr (haliases order (hsubset horder))]
  have hmerged : (plan'.mergedLinks.mapM fun planned => planned.link.orders.mapM
        (context.sortKey plan'.aliases (.link planned.link.entity planned.aliasName))) =
      plan.mergedLinks.mapM fun planned => planned.link.orders.mapM
        (context.sortKey plan.aliases (.link planned.link.entity planned.aliasName)) := by
    apply mapM_eq_of_forall₂
    have hboth := (List.forall₂_and_left _ _).mpr
      ⟨fun (planned : PlannedLink) (hmem : planned ∈ plan.mergedLinks) => hmem, hlinks⟩
    apply hboth.imp
    rintro first second ⟨hmem, hname, hlink, -, horders⟩
    rw [hname, hlink, horders]
    apply hkeys
    intro order horder
    exact List.mem_append_right _ (List.mem_flatMap.mpr ⟨first, hmem, horder⟩)
  unfold sortKeys
  rw [hentity, horders, hkeys query.orders (List.subset_append_left _ _), hmerged]

theorem projection_congr (hcolumns : other.columns = query.columns)
    (hid : plan'.primaryId = plan.primaryId) :
    context.projection other plan' = context.projection query plan := by
  unfold projection
  rw [hentity, hcolumns, hid]
  congr 1
  funext root
  congr 1
  apply mapM_eq_of_forall₂
  apply hlinks.imp
  rintro first second ⟨hname, hlink, hcolumns, -⟩
  rw [hname, hlink, hcolumns]

theorem shape_congr (hcolumns : other.columns = query.columns)
    (horders : other.orders = query.orders) (haggregate : other.aggregate = query.aggregate)
    (hid : plan'.primaryId = plan.primaryId)
    (haliases : ∀ name, AliasMap.entity plan'.aliases name = AliasMap.entity plan.aliases name) :
    context.shape other plan' = context.shape query plan := by
  have hselected : List.Forall₂ SelectsAlike plan.mergedLinks plan'.mergedLinks :=
    hlinks.imp fun _ _ ⟨hname, hlink, hcolumns, _⟩ => ⟨hname, hlink, hcolumns⟩
  unfold shape
  rw [haggregate, aggregateColumns_congr hentity hcolumns hselected,
    projection_congr hentity hlinks hcolumns hid,
    sortKeys_congr hentity hlinks horders fun _ _ name _ => haliases name]

end Shape

def finish (context : Context) (aliases : AliasMap) (deferred : List Predicate)
    (links : List PlannedLink) (relation : Relation) : Except Error Relation := do
  let (joined, filters) ← context.joinLinks aliases none relation deferred links
  joined.filter (Predicate.conjunction filters)

theorem matchingRows_eq_finish (plan : Plan) (criteria : Predicate) :
    context.matchingRows plan criteria = context.finish plan.aliases [criteria] plan.links
      (.scan context.store plan.root plan.primaryId) := rfl

theorem finish_carries {aliases others : AliasMap} {p q : Predicate} {links tail : List PlannedLink}
    {relation : Relation} (hpq : Predicate.Alike Eq p q)
    (hlinks : PlannedLink.CarryAll strict context aliases others Eq links tail) :
    Carries strict Eq (context.finish aliases [p] links relation)
      (context.finish others [q] tail relation) := by
  have hjoined : Carries strict (Alike Eq) (context.joinLinks aliases none relation [p] links)
      (context.joinLinks others none relation [q] tail) :=
    joinLinks_carries links tail hlinks (Likeness.eq _) (fun _ _ _ _ h => by rw [h])
      ⟨Relation.Alike.refl _, .cons hpq .nil⟩
  apply hjoined.bind
  rintro ⟨_, filters⟩ ⟨joined, filters'⟩ h
  obtain rfl := h.rows.eq
  exact ((Relation.Alike.refl joined).filter (Predicate.Alike.conjunction h.filters)).imp
    fun _ _ hshown => hshown.eq.symm

theorem run_carries (hentity : other.entity = query.entity) (hpaging : other.paging = query.paging)
    (hdistinct : other.distinct = query.distinct) (htop : other.top? = query.top?)
    (hplan : Carries strict (fun plan plan' : Plan =>
        plan'.root = plan.root ∧ plan'.primaryId = plan.primaryId ∧
        Carries strict (Predicate.Alike Eq)
          (query.criteria.compile context plan.aliases (.root query.entity))
          (other.criteria.compile context plan'.aliases (.root query.entity)) ∧
        Carries strict Eq (context.shape query plan) (context.shape other plan') ∧
        PlannedLink.CarryAll strict context plan.aliases plan'.aliases Eq plan.links plan'.links)
      (Plan.ofQuery context.catalog query) (Plan.ofQuery context.catalog other)) :
    Carries strict Eq (context.run query) (context.run other) := by
  unfold run
  apply hplan.bind
  rintro plan plan' ⟨hroot, hid, hcriteria, hshape, hlinks⟩
  rw [hentity]
  apply hcriteria.bind
  intro p q hpq
  apply hshape.bind
  rintro shape _ rfl
  rw [matchingRows_eq_finish, matchingRows_eq_finish, hroot, hid]
  apply (finish_carries hpq hlinks).bind
  rintro relation _ rfl
  apply Carries.of_eq
  unfold shaped paged
  rw [hentity, hpaging, hdistinct, htop]

end Context

end RecordQuery
