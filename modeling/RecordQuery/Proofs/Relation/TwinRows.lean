import RecordQuery.Proofs.Relation.PresentRows
import RecordQuery.Proofs.Relation.TwinStores

namespace RecordQuery

open Record (Twin OpenTwin qualify isQualified)

def Predicate.ReadsOf (predicate : Predicate) (catalog : Catalog) (plan : Plan) (entity : String) :
    Prop :=
  ∀ read ∈ predicate.accessors, read.Of catalog plan entity

namespace Context

structure Twin (context : Context) (store : Store) (plan : Plan) : Prop where
  stores : Store.Twin context.catalog context.store store
  own : plan.Separates context.catalog context.store
  other : plan.Separates context.catalog store
  aliases : (plan.aliases.map Prod.fst).Nodup

structure TwinRows (context : Context) (plan : Plan) (entity : String) (fresh : List String)
    (first second : Relation × List Predicate) : Prop where
  rows : Relation.Alike (OpenTwin (plan.MayBeNull context.catalog entity) fresh) first.1 second.1
  filters : second.2 = first.2
  reads : ∀ predicate ∈ first.2, predicate.ReadsOf context.catalog plan entity

section Twin

variable {context : Context} {store : Store} {plan : Plan} {entity : String}
variable (h : context.Twin store plan)

include h

theorem Twin.keeps {accessor : Accessor} (hentity : entity ∈ plan.entities)
    (haccessor : accessor.Of context.catalog plan entity) :
    accessor.Keeps (Record.Twin (plan.MayBeNull context.catalog entity)) :=
  fun _ _ hrow => hrow.readsAlike (haccessor.not_mayBeNull h.aliases hentity h.own.references)

theorem Twin.alike {predicate : Predicate} (hentity : entity ∈ plan.entities)
    (hreads : predicate.ReadsOf context.catalog plan entity) :
    predicate.Alike (Record.Twin (plan.MayBeNull context.catalog entity)) predicate :=
  Predicate.alike_of_present fun accessor hmem => h.keeps hentity (hreads accessor hmem)

theorem Twin.alike_open {predicate : Predicate} {fresh : List String}
    (hentity : entity ∈ plan.entities)
    (hreads : predicate.ReadsOf context.catalog plan entity) :
    predicate.Alike (OpenTwin (plan.MayBeNull context.catalog entity) fresh) predicate :=
  (h.alike hentity hreads).mono fun _ _ hrow => hrow.toTwin

theorem Twin.scan (hentity : entity ∈ plan.entities) :
    Carries True (Relation.Alike
        (OpenTwin (plan.MayBeNull context.catalog entity) (plan.aliases.map Prod.fst)))
      (context.scan entity) ((context.withStore store).scan entity) := by
  unfold Context.scan
  have hcatalog : (context.withStore store).catalog = context.catalog := rfl
  rw [hcatalog]
  cases hid : context.catalog.primaryId entity with
  | error fault => exact Carries.of_error fault
  | ok primaryId => exact Carries.of_ok (h.stores.scan h.own h.other hentity hid)

theorem Twin.compile {scope : Scope} (filter : Filter)
    (hscope : ∀ accessor : Accessor, accessor.In context.catalog plan.aliases scope →
      accessor.Of context.catalog plan entity) :
    Carries True
      (fun p q : Predicate => q = p ∧ p.ReadsOf context.catalog plan entity)
      (filter.compile context plan.aliases scope)
      (filter.compile (context.withStore store) plan.aliases scope) := by
  rw [h.stores.compile]
  cases hcompile : filter.compile context plan.aliases scope with
  | error fault => exact Carries.of_error fault
  | ok predicate =>
    refine Carries.of_ok ⟨rfl, fun read hread => hscope read ?_⟩
    exact Filter.compile_accessors filter hcompile read hread

theorem Twin.compile_root (entity : String) (filter : Filter) :
    Carries True
      (fun p q : Predicate => q = p ∧ p.ReadsOf context.catalog plan entity)
      (filter.compile context plan.aliases (.root entity))
      (filter.compile (context.withStore store) plan.aliases (.root entity)) :=
  h.compile filter fun _ hin => hin

theorem Twin.waitingFilter {aliasName target : String}
    (hmem : (aliasName, target) ∈ plan.aliases) (filter : Filter) :
    Carries True
      (fun ps qs : List Predicate => qs = ps ∧
        ∀ p ∈ ps, p.ReadsOf context.catalog plan entity)
      (context.waitingFilter plan.aliases filter (.link target aliasName))
      ((context.withStore store).waitingFilter plan.aliases filter (.link target aliasName)) := by
  unfold Context.waitingFilter
  split
  · exact Carries.of_ok ⟨rfl, fun p hp => nomatch hp⟩
  · apply (h.compile filter fun accessor => Accessor.of_link hmem h.aliases).map
    rintro p _ ⟨rfl, hreads⟩
    refine ⟨rfl, fun other hother => ?_⟩
    rwa [List.mem_singleton.mp hother]

end Twin

section Joins

variable {context : Context} {store : Store} {plan : Plan}

theorem mayBeNull_qualify {entity target aliasName : String}
    (hmem : (aliasName, target) ∈ plan.aliases) {name : String} (hname : isQualified name = false)
    (h : plan.MayBeNull context.catalog target name) :
    plan.MayBeNull context.catalog entity (qualify aliasName name) := by
  obtain ⟨hdeclared, -⟩ | ⟨_, _, -, inner, -, rfl, -⟩ := h
  · exact Or.inr ⟨aliasName, target, hmem, name, hname, rfl, hdeclared⟩
  · rw [Record.isQualified_qualify] at hname
    contradiction

mutual

theorem Twin.joinLink (h : context.Twin store plan) {entity : String} {parent? : Option String}
    {rest : List String} {relation relation' : Relation} {deferred deferred' : List Predicate}
    (hentity : entity ∈ plan.entities) : (planned : PlannedLink) →
    planned.aliases ⊆ plan.aliases → (planned.aliases.map Prod.fst ++ rest).Nodup →
    context.TwinRows plan entity (planned.aliases.map Prod.fst ++ rest) (relation, deferred)
      (relation', deferred') →
    Carries True (context.TwinRows plan entity rest)
      (context.joinLink plan.aliases parent? relation deferred planned)
      ((context.withStore store).joinLink plan.aliases parent? relation' deferred' planned)
  | ⟨aliasName, link, children⟩, haliases, hnodup, hrows => by
    simp only [PlannedLink.aliases, List.map_cons, List.cons_append] at hnodup hrows
    rw [PlannedLink.aliases, List.cons_subset] at haliases
    obtain ⟨hmem, hchildren⟩ := haliases
    obtain ⟨hnew, hnames⟩ := List.nodup_cons.mp hnodup
    obtain ⟨hrows, rfl, hreads⟩ := hrows
    have htarget : link.entity ∈ plan.entities :=
      List.mem_cons_of_mem _ (List.mem_map_of_mem hmem)
    have hscan := h.scan htarget
    have hroot := h.compile_root link.entity link.filter
    cases hkind : link.kind with
    | inner =>
      rw [joinLink_inner _ _ _ _ _ _ hkind, joinLink_inner _ _ _ _ _ _ hkind]
      apply hscan.bind
      intro right right' hright
      apply (h.waitingFilter hmem link.filter).bind
      rintro _ waiting ⟨rfl, hwaiting⟩
      apply h.joinLinks hentity children hchildren hnames
      refine ⟨?_, rfl, List.forall_mem_append.mpr ⟨hreads, hwaiting⟩⟩
      exact hrows.join_twins hright false (List.Subset.refl _) hnew fun _ => mayBeNull_qualify hmem
    | leftOuter =>
      rw [joinLink_leftOuter _ _ _ _ _ _ hkind, joinLink_leftOuter _ _ _ _ _ _ hkind]
      apply hscan.bind
      intro right right' hright
      apply hroot.bind
      rintro _ predicate ⟨rfl, hpredicate⟩
      apply (hright.filter (h.alike_open htarget hpredicate)).bind
      intro admitted admitted' hadmitted
      apply (h.waitingFilter hmem link.filter.relaxed).bind
      rintro _ waiting ⟨rfl, hwaiting⟩
      apply h.joinLinks hentity children hchildren hnames
      refine ⟨?_, rfl, List.forall_mem_append.mpr ⟨hreads, hwaiting⟩⟩
      exact hrows.join_twins hadmitted true (List.Subset.refl _) hnew fun _ => mayBeNull_qualify hmem
    | _ =>
      -- The rows inside start from the records of the link, and need no other names after it.
      have hexistential : link.kind.isExistential = true := by rw [hkind]; rfl
      rw [joinLink_existential _ _ _ _ _ _ hexistential,
        joinLink_existential _ _ _ _ _ _ hexistential]
      apply hscan.bind
      intro right right' hright
      apply hroot.bind
      rintro _ predicate ⟨rfl, hpredicate⟩
      have hinner : context.TwinRows plan link.entity
          ((PlannedLink.aliasesAll children).map Prod.fst ++ [])
          (right, [predicate]) (right', [predicate]) := by
        refine ⟨hright.imp fun _ _ hrow => hrow.mono ?_, rfl, ?_⟩
        · rw [List.append_nil]
          exact List.map_subset _ hchildren
        · exact List.forall_mem_singleton.mpr hpredicate
      have hnodup : ((PlannedLink.aliasesAll children).map Prod.fst ++ []).Nodup := by
        rw [List.append_nil]
        exact (List.nodup_append.mp hnames).1
      apply (h.joinLinks htarget children hchildren hnodup hinner).bind
      rintro ⟨linked, _⟩ ⟨linked', filters⟩ ⟨hlinked, rfl, hfilters⟩
      have halike : Predicate.Alike (OpenTwin (plan.MayBeNull context.catalog link.entity) [])
          (.conjunction filters) (.conjunction filters) :=
        Predicate.Alike.conjunction (List.forall₂_same.mpr fun p hp =>
          h.alike_open htarget (hfilters p hp))
      apply (hrows.existsJoin hlinked link.kind Relation.linksAlike_twins halike).bind
      intro kept kept' hkept
      refine Carries.of_ok ⟨hkept.imp fun _ _ hrow => hrow.mono ?_, rfl, hreads⟩
      exact fun _ hmem => List.mem_cons_of_mem _ (List.mem_append_right _ hmem)

theorem Twin.joinLinks (h : context.Twin store plan) {entity : String} {parent? : Option String}
    {rest : List String} {relation relation' : Relation} {deferred deferred' : List Predicate}
    (hentity : entity ∈ plan.entities) : (links : List PlannedLink) →
    PlannedLink.aliasesAll links ⊆ plan.aliases →
    ((PlannedLink.aliasesAll links).map Prod.fst ++ rest).Nodup →
    context.TwinRows plan entity ((PlannedLink.aliasesAll links).map Prod.fst ++ rest)
      (relation, deferred) (relation', deferred') →
    Carries True (context.TwinRows plan entity rest)
      (context.joinLinks plan.aliases parent? relation deferred links)
      ((context.withStore store).joinLinks plan.aliases parent? relation' deferred' links)
  | [], _, _, hrows => by
    simp only [Context.joinLinks]
    exact Carries.of_ok hrows
  | planned :: tail, haliases, hnodup, hrows => by
    simp only [PlannedLink.aliasesAll, List.map_append, List.append_assoc, List.append_subset]
      at haliases hnodup hrows
    simp only [Context.joinLinks]
    apply (h.joinLink hentity planned haliases.1 hnodup hrows).bind
    rintro ⟨joined, waiting⟩ ⟨joined', waiting'⟩ hjoined
    exact h.joinLinks hentity tail haliases.2 (List.nodup_append.mp hnodup).2.1 hjoined

end

end Joins

theorem Twin.matchingRows {context : Context} {store : Store} {plan : Plan}
    (h : context.Twin store plan) {criteria : Predicate}
    (hid : context.catalog.primaryId plan.root = .ok plan.primaryId)
    (hcriteria : criteria.ReadsOf context.catalog plan plan.root) :
    Carries True (Relation.Alike (Record.Twin (plan.MayBeNull context.catalog plan.root)))
      (context.matchingRows plan criteria)
      ((context.withStore store).matchingRows plan criteria) := by
  have hentity : plan.root ∈ plan.entities := List.mem_cons_self
  have hscan : context.TwinRows plan plan.root
      ((PlannedLink.aliasesAll plan.links).map Prod.fst ++ [])
      (.scan context.store plan.root plan.primaryId, [criteria])
      (.scan store plan.root plan.primaryId, [criteria]) := by
    rw [List.append_nil]
    exact ⟨h.stores.scan h.own h.other hentity hid, rfl, List.forall_mem_singleton.mpr hcriteria⟩
  have hnodup : ((PlannedLink.aliasesAll plan.links).map Prod.fst ++ []).Nodup := by
    rw [List.append_nil]
    exact h.aliases
  unfold Context.matchingRows
  apply (h.joinLinks hentity plan.links (List.Subset.refl _) hnodup hscan).bind
  rintro ⟨joined, filters⟩ ⟨joined', _⟩ ⟨hjoined, rfl, hfilters⟩
  have halike := Predicate.Alike.conjunction (List.forall₂_same.mpr fun p hp =>
    h.alike hentity (hfilters p hp))
  exact (hjoined.imp fun _ _ hrow => hrow.toTwin).filter halike

end Context

end RecordQuery
