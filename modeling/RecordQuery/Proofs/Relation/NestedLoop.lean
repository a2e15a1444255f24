import Mathlib.Data.List.Nodup
import RecordQuery.Proofs.Plan.Aliases
import RecordQuery.Proofs.Predicate.Renaming
import RecordQuery.Proofs.Relation.Linking

/-!
The joins of a query as nested loops: link by link, every row is paired with the target records that
have its key and pass the filter of the link. That filters wait until the end, under qualified keys,
makes no difference, as nothing touches these keys in between.
-/

namespace RecordQuery

structure Step where
  parent? : Option String
  aliasName : String
  link : Link

namespace PlannedLink

mutual

def steps (parent? : Option String) : PlannedLink → List Step
  | ⟨aliasName, link, children⟩ => ⟨parent?, aliasName, link⟩ :: stepsAll (some aliasName) children

def stepsAll (parent? : Option String) : List PlannedLink → List Step
  | [] => []
  | planned :: rest => planned.steps parent? ++ stepsAll parent? rest

end

end PlannedLink

/-- A row paired with the target records of its key that pass the filter; without any, it is dropped
or, in an outer link, kept. -/
def Step.pair (step : Step) (own : Predicate) (targets : List Record) (row : Record) : List Record :=
  match targets.filter fun target =>
    row.linksTo target (Accessor.qualifiedBy step.parent? step.link.source) step.link.target &&
      own.admits target with
  | [] => if step.link.kind = .leftOuter then [row] else []
  | found => found.map (row.merge step.aliasName)

namespace Context

def pairAll (context : Context) (aliases : AliasMap) (rows : List Record) (step : Step) :
    Except Error (List Record) := do
  let scanned ← context.scan step.link.entity
  let own ← step.link.filter.compile context aliases (.root step.link.entity)
  return rows.flatMap (step.pair own scanned.records)

def nestedLoop (context : Context) (plan : Plan) (criteria : Predicate) :
    Except Error (List Record) := do
  let rows ← (PlannedLink.stepsAll none plan.links).foldlM (context.pairAll plan.aliases)
    (Relation.scan context.store plan.root plan.primaryId).records
  return rows.filter criteria.admits

end Context

namespace Record

def Fresh (record : Record) (names : List String) : Prop :=
  ∀ aliasName ∈ names, ∀ name, record.get? (qualify aliasName name) = none

def Plain (record : Record) : Prop :=
  ∀ key, isQualified key = true → record.get? key = none

theorem Plain.fresh {record : Record} (h : record.Plain) (names : List String) :
    record.Fresh names :=
  fun aliasName _ name => h _ (isQualified_qualify aliasName name)

theorem Fresh.left {record : Record} {names others : List String}
    (h : record.Fresh (names ++ others)) : record.Fresh names :=
  fun aliasName hmem => h aliasName (List.mem_append_left _ hmem)

theorem Fresh.right {record : Record} {names others : List String}
    (h : record.Fresh (names ++ others)) : record.Fresh others :=
  fun aliasName hmem => h aliasName (List.mem_append_right _ hmem)

theorem getUnwrapped?_merge {record target : Record} {aliasName : String}
    (hfresh : record.Fresh [aliasName]) (hplain : target.Plain) (name : String) :
    (record.merge aliasName target).getUnwrapped? (qualify aliasName name) =
      target.getUnwrapped? name := by
  unfold getUnwrapped?
  rw [get?_merge_qualify]
  have hnone := hfresh aliasName (List.mem_singleton_self _) name
  cases hname : isQualified name with
  | true => simp [hnone, hplain name hname]
  | false =>
    cases target.get? name with
    | none => simp [hnone]
    | some value => simp [Value.unwrap, Value.unwrap_unwrap]

end Record

def Apart (names others : List String) : Prop :=
  ∀ first ∈ names, ∀ second ∈ others, ∀ name key,
    Record.qualify first name ≠ Record.qualify second key

theorem Frame.fresh {names others : List String} {rows : Record → List Record}
    (hframe : Frame names rows) (hapart : Apart names others) {record row : Record}
    (hrow : row ∈ rows record) (hfresh : record.Fresh others) : row.Fresh others := by
  intro second hsecond key
  rw [hframe record row hrow]
  · exact hfresh second hsecond key
  · exact fun first hfirst name => (hapart first hfirst second hsecond name key).symm

/-- What the joins make of a row, with the filters that wait, is what pairing makes of it. -/
structure Follows (context : Context) (aliases : AliasMap) (steps : List Step)
    (rows nest : Record → List Record) (waiting : List Predicate) : Prop where
  loop : ∀ records, steps.foldlM (context.pairAll aliases) records = .ok (records.flatMap nest)
  filtered : ∀ record : Record, record.Fresh (steps.map (·.aliasName)) →
    (rows record).filter (fun row => waiting.all (·.admits row)) = nest record
  stable : ∀ predicate ∈ waiting, ∀ record other : Record,
    (∀ step ∈ steps, ∀ name, record.get? (Record.qualify step.aliasName name) =
      other.get? (Record.qualify step.aliasName name)) →
    predicate.admits record = predicate.admits other

theorem Relation.filter_records {relation kept : Relation} {predicate : Predicate}
    (h : relation.filter predicate = .ok kept) :
    kept.records = relation.records.filter predicate.admits := by
  unfold filter at h
  split at h
  · contradiction
  · rw [← Except.ok.inj h]
    rfl

namespace Follows

variable {context : Context} {aliases : AliasMap}

theorem done : Follows context aliases [] (fun record => [record]) (fun record => [record]) [] where
  loop records := by simp
  filtered record _ := rfl
  stable predicate h := by contradiction

theorem all_admits_congr {predicates : List Predicate} {record other : Record}
    (h : ∀ predicate ∈ predicates, predicate.admits record = predicate.admits other) :
    predicates.all (·.admits record) = predicates.all (·.admits other) := by
  rw [Bool.eq_iff_iff, List.all_eq_true, List.all_eq_true]
  exact forall₂_congr fun predicate hpredicate => by rw [h predicate hpredicate]

theorem all_admits_eq {steps : List Step} {names : List String}
    {rows nest nextRows : Record → List Record} {waiting : List Predicate}
    (h : Follows context aliases steps rows nest waiting) (hframe : Frame names nextRows)
    (hapart : Apart (steps.map (·.aliasName)) names) {row last : Record} (hlast : last ∈ nextRows row) :
    waiting.all (·.admits last) = waiting.all (·.admits row) := by
  apply all_admits_congr
  intro predicate hpredicate
  apply h.stable predicate hpredicate
  intro step hstep name
  apply hframe row last hlast
  exact fun second hsecond => hapart step.aliasName (List.mem_map_of_mem hstep) second hsecond name

theorem seq {steps others : List Step} {rows nest nextRows nextNest : Record → List Record}
    {waiting nextWaiting : List Predicate} (h : Follows context aliases steps rows nest waiting)
    (hnext : Follows context aliases others nextRows nextNest nextWaiting)
    (hframe : Frame (steps.map (·.aliasName)) rows)
    (hnextFrame : Frame (others.map (·.aliasName)) nextRows)
    (hapart : Apart (steps.map (·.aliasName)) (others.map (·.aliasName))) :
    Follows context aliases (steps ++ others) (fun record => (rows record).flatMap nextRows)
      (fun record => (nest record).flatMap nextNest) (waiting ++ nextWaiting) := by
  constructor
  · intro records
    rw [List.foldlM_append, h.loop, ok_bind, hnext.loop, List.flatMap_assoc]
  · intro record hfresh
    rw [List.map_append] at hfresh
    have hrows : ∀ row ∈ rows record,
        (nextRows row).filter (fun row => (waiting ++ nextWaiting).all (·.admits row)) =
          if waiting.all (·.admits row) then nextNest row else [] := by
      intro row hrow
      have hsplit : ∀ last ∈ nextRows row, (waiting ++ nextWaiting).all (·.admits last) =
          (waiting.all (·.admits row) && nextWaiting.all (·.admits last)) := by
        intro last hlast
        rw [List.all_append, h.all_admits_eq hnextFrame hapart hlast]
      rw [List.filter_congr hsplit,
        ← hnext.filtered row (hframe.fresh hapart hrow hfresh.right)]
      cases waiting.all (·.admits row) <;> simp
    rw [List.filter_flatMap, List.flatMap_congr hrows, Relation.flatMap_ite,
      h.filtered record hfresh.left]
  · intro predicate hpredicate record other hsame
    rcases List.mem_append.mp hpredicate with hpredicate | hpredicate
    · exact h.stable predicate hpredicate record other fun step hstep =>
        hsame step (List.mem_append_left _ hstep)
    · exact hnext.stable predicate hpredicate record other fun step hstep =>
        hsame step (List.mem_append_right _ hstep)

theorem filter_flatMap {steps : List Step} {rows nest : Record → List Record}
    {waiting : List Predicate} (h : Follows context aliases steps rows nest waiting)
    {records : List Record}
    (hfresh : ∀ record ∈ records, record.Fresh (steps.map (·.aliasName))) :
    (records.flatMap rows).filter (fun row => waiting.all (·.admits row)) =
      records.flatMap nest := by
  rw [List.filter_flatMap]
  exact List.flatMap_congr fun record hrecord => h.filtered record (hfresh record hrecord)

theorem waitingFilter_relaxed {filter : Filter} {scope : Scope} {waiting : List Predicate}
    (h : context.waitingFilter aliases filter.relaxed scope = .ok waiting) (record : Record) :
    ∀ predicate ∈ waiting, predicate.admits record = true := by
  unfold Context.waitingFilter at h
  split at h
  · obtain rfl := Except.ok.inj h
    simp
  · obtain ⟨predicate, hpredicate, rfl⟩ := map_eq_ok_iff.mp h
    obtain ⟨compiled, hcompiled, hadmits⟩ :=
      Filter.compile_of_allOuter context aliases scope filter.relaxed (Filter.allOuter_relaxed filter)
    obtain rfl := Except.ok.inj (hcompiled.symm.trans hpredicate)
    simpa using hadmits record

theorem waitingFilter_spec {filter : Filter} {entity aliasName : String} {waiting : List Predicate}
    (hfilter : ∀ condition ∈ filter.conditionsWithin, condition.Unqualified)
    (h : context.waitingFilter aliases filter (.link entity aliasName) = .ok waiting) :
    ∃ own, filter.compile context aliases (.root entity) = .ok own ∧
      (∀ record target : Record, record.Fresh [aliasName] → target.Plain →
        waiting.all (·.admits (record.merge aliasName target)) = own.admits target) ∧
      ∀ predicate ∈ waiting, ∀ record other : Record,
        (∀ name, record.get? (Record.qualify aliasName name) =
          other.get? (Record.qualify aliasName name)) →
        predicate.admits record = predicate.admits other := by
  unfold Context.waitingFilter at h
  split at h
  · rename_i hempty
    obtain rfl := Except.ok.inj h
    obtain ⟨own, hown, hadmits⟩ := Filter.compile_of_allOuter context aliases (.root entity) filter
      (Filter.allOuter_of_isEmpty filter hempty)
    exact ⟨own, hown, fun record target _ _ => (hadmits target).symm, by simp⟩
  · obtain ⟨predicate, hpredicate, rfl⟩ := map_eq_ok_iff.mp h
    rw [Filter.compile_qualify entity aliasName filter hfilter] at hpredicate
    obtain ⟨own, hown, rfl⟩ := map_eq_ok_iff.mp hpredicate
    refine ⟨own, hown, ?_, ?_⟩
    · intro record target hfresh hplain
      -- The record alone is read under the keys themselves, the merged row under qualified ones.
      have hadmits := Predicate.admits_mapKeys (f := Record.qualify aliasName) (g := fun key => key)
        (Record.getUnwrapped?_merge hfresh hplain) own
      rw [Predicate.mapKeys_id] at hadmits
      simpa using hadmits
    · intro predicate hmem record other hsame
      obtain rfl := List.mem_singleton.mp hmem
      refine Predicate.admits_mapKeys ?_ own
      intro name
      simp only [Record.getUnwrapped?, hsame]

theorem joinRow_inner (right : List Record) (leftColumn rightColumn aliasName : String)
    (record : Record) :
    Relation.joinRow right leftColumn rightColumn aliasName false record =
      (Relation.linked right leftColumn rightColumn record).map (record.merge aliasName) := by
  unfold Relation.joinRow
  split
  · rename_i hnone
    simp [hnone]
  · rfl

theorem pair_inner {step : Step} (hkind : step.link.kind = .inner) (own : Predicate)
    (targets : List Record) (record : Record) :
    step.pair own targets record =
      ((Relation.linked targets (Accessor.qualifiedBy step.parent? step.link.source)
        step.link.target record).filter own.admits).map (record.merge step.aliasName) := by
  unfold Step.pair Relation.linked
  rw [List.filter_filter]
  simp only [Bool.and_comm]
  split
  · rename_i hnone
    simp [hkind, hnone]
  · rfl

variable (parent? : Option String) {aliasName : String} {link : Link} {right : Relation}

theorem loop_singleton {step : Step} {own : Predicate}
    (hscan : context.scan step.link.entity = .ok right)
    (hown : step.link.filter.compile context aliases (.root step.link.entity) = .ok own)
    (records : List Record) :
    [step].foldlM (context.pairAll aliases) records =
      .ok (records.flatMap (step.pair own right.records)) := by
  simp [Context.pairAll, hscan, hown]

theorem inner (hkind : link.kind = .inner) (hscan : context.scan link.entity = .ok right)
    (hplain : ∀ target ∈ right.records, target.Plain)
    (hfilter : ∀ condition ∈ link.filter.conditionsWithin, condition.Unqualified)
    {waiting : List Predicate}
    (hwaiting : context.waitingFilter aliases link.filter (.link link.entity aliasName) =
      .ok waiting) :
    ∃ nest, Follows context aliases [⟨parent?, aliasName, link⟩]
      (Relation.joinRow right.records (Accessor.qualifiedBy parent? link.source) link.target
        aliasName false) nest waiting := by
  obtain ⟨own, hown, hadmits, hstable⟩ := waitingFilter_spec hfilter hwaiting
  refine ⟨Step.pair ⟨parent?, aliasName, link⟩ own right.records, loop_singleton hscan hown, ?_, ?_⟩
  · intro record hfresh
    rw [joinRow_inner, pair_inner hkind, List.filter_map]
    congr 1
    refine List.filter_congr fun target hlinked => ?_
    exact hadmits record target hfresh (hplain target (List.mem_filter.mp hlinked).1)
  · intro predicate hpredicate record other hsame
    exact hstable predicate hpredicate record other
      (hsame ⟨parent?, aliasName, link⟩ (List.mem_singleton_self _))

theorem leftOuter (hkind : link.kind = .leftOuter) (hscan : context.scan link.entity = .ok right)
    {own : Predicate} {admitted : Relation} {waiting : List Predicate}
    (hown : link.filter.compile context aliases (.root link.entity) = .ok own)
    (hadmitted : right.filter own = .ok admitted)
    (hwaiting : context.waitingFilter aliases link.filter.relaxed (.link link.entity aliasName) =
      .ok waiting) :
    ∃ nest, Follows context aliases [⟨parent?, aliasName, link⟩]
      (Relation.joinRow admitted.records (Accessor.qualifiedBy parent? link.source) link.target
        aliasName true) nest waiting := by
  have hrecords := Relation.filter_records hadmitted
  refine ⟨Step.pair ⟨parent?, aliasName, link⟩ own right.records, loop_singleton hscan hown, ?_, ?_⟩
  · intro record _
    have hall : ∀ row ∈ Relation.joinRow admitted.records
        (Accessor.qualifiedBy parent? link.source) link.target aliasName true record,
        waiting.all (·.admits row) = true := by
      intro row _
      exact List.all_eq_true.mpr (waitingFilter_relaxed hwaiting row)
    rw [List.filter_eq_self.mpr hall, hrecords]
    unfold Relation.joinRow Relation.linked Step.pair
    rw [List.filter_filter]
    cases right.records.filter fun target =>
      record.linksTo target (Accessor.qualifiedBy parent? link.source) link.target &&
        own.admits target with
    | nil => simp [hkind]
    | cons target rest => rfl
  · intro predicate hpredicate record other _
    rw [waitingFilter_relaxed hwaiting record predicate hpredicate,
      waitingFilter_relaxed hwaiting other predicate hpredicate]

end Follows

structure Simple (context : Context) (steps : List Step) : Prop where
  kinds : ∀ step ∈ steps, step.link.kind.isExistential = false
  filters : ∀ step ∈ steps, ∀ condition ∈ step.link.filter.conditionsWithin, condition.Unqualified
  targets : ∀ step ∈ steps, ∀ right, context.scan step.link.entity = .ok right →
    ∀ target ∈ right.records, target.Plain
  plain : ∀ step ∈ steps, Record.isQualified step.aliasName = false
  nodup : (steps.map (·.aliasName)).Nodup

namespace Simple

variable {context : Context} {steps others : List Step}

theorem left (h : Simple context (steps ++ others)) : Simple context steps where
  kinds step hstep := h.kinds step (List.mem_append_left _ hstep)
  filters step hstep := h.filters step (List.mem_append_left _ hstep)
  targets step hstep := h.targets step (List.mem_append_left _ hstep)
  plain step hstep := h.plain step (List.mem_append_left _ hstep)
  nodup := (List.nodup_append.mp (List.map_append ▸ h.nodup)).1

theorem right (h : Simple context (steps ++ others)) : Simple context others where
  kinds step hstep := h.kinds step (List.mem_append_right _ hstep)
  filters step hstep := h.filters step (List.mem_append_right _ hstep)
  targets step hstep := h.targets step (List.mem_append_right _ hstep)
  plain step hstep := h.plain step (List.mem_append_right _ hstep)
  nodup := (List.nodup_append.mp (List.map_append ▸ h.nodup)).2.1

theorem apart (h : Simple context (steps ++ others)) :
    Apart (steps.map (·.aliasName)) (others.map (·.aliasName)) := by
  intro first hfirst second hsecond name key heq
  have hnodup := h.nodup
  rw [List.map_append] at hnodup
  apply (List.nodup_append.mp hnodup).2.2 first hfirst second hsecond
  obtain ⟨step, hstep, rfl⟩ := List.mem_map.mp hfirst
  obtain ⟨other, hother, rfl⟩ := List.mem_map.mp hsecond
  exact Record.qualify_left_injective (h.left.plain step hstep) (h.right.plain other hother) heq

end Simple

namespace Context

open PlannedLink

variable {context : Context} {aliases : AliasMap}

mutual

theorem joinLink_follows {parent? : Option String} {relation joined : Relation}
    {deferred after : List Predicate} : (planned : PlannedLink) →
    Simple context (planned.steps parent?) →
    context.joinLink aliases parent? relation deferred planned = .ok (joined, after) →
    ∃ rows added waiting nest, RowWise ((planned.steps parent?).map (·.aliasName))
        (fun below deferred => context.joinLink aliases parent? below deferred planned) relation rows
        added waiting ∧
      Follows context aliases (planned.steps parent?) rows nest waiting
  | ⟨aliasName, link, children⟩, hsimple, h => by
    rw [steps, ← List.singleton_append] at hsimple
    have hown := hsimple.left
    have hmem : (⟨parent?, aliasName, link⟩ : Step) ∈ [(⟨parent?, aliasName, link⟩ : Step)] :=
      List.mem_singleton_self _
    cases hkind : link.kind with
    | inner =>
      simp only [joinLink_inner _ _ _ _ _ _ hkind] at h
      obtain ⟨right, hright, h⟩ := bind_eq_ok_iff.mp h
      obtain ⟨waiting, hwaiting, h⟩ := bind_eq_ok_iff.mp h
      obtain ⟨rows, added, filters, nest, hrows, hfollows⟩ :=
        joinLinks_follows children hsimple.right h
      rw [Relation.join_eq] at hrows
      obtain ⟨pairs, hpairs⟩ := Follows.inner parent? hkind hright
        (hown.targets _ hmem right hright) (hown.filters _ hmem) hwaiting
      have hjoin := RowWise.join relation right (Accessor.qualifiedBy parent? link.source)
        link.target aliasName false waiting
      simp only [joinLink_inner _ _ _ _ _ _ hkind, hright, hwaiting, ok_bind, steps]
      exact ⟨_, _, _, _, hjoin.seq hrows,
        hpairs.seq hfollows hjoin.frame hrows.frame hsimple.apart⟩
    | leftOuter =>
      simp only [joinLink_leftOuter _ _ _ _ _ _ hkind] at h
      obtain ⟨right, hright, h⟩ := bind_eq_ok_iff.mp h
      obtain ⟨predicate, hpredicate, h⟩ := bind_eq_ok_iff.mp h
      obtain ⟨admitted, hadmitted, h⟩ := bind_eq_ok_iff.mp h
      obtain ⟨waiting, hwaiting, h⟩ := bind_eq_ok_iff.mp h
      obtain ⟨rows, added, filters, nest, hrows, hfollows⟩ :=
        joinLinks_follows children hsimple.right h
      rw [Relation.join_eq] at hrows
      obtain ⟨pairs, hpairs⟩ := Follows.leftOuter parent? hkind hright hpredicate
        hadmitted hwaiting
      have hjoin := RowWise.join relation admitted (Accessor.qualifiedBy parent? link.source)
        link.target aliasName true waiting
      simp only [joinLink_leftOuter _ _ _ _ _ _ hkind, hright, hpredicate, hadmitted, hwaiting,
        ok_bind, steps]
      exact ⟨_, _, _, _, hjoin.seq hrows,
        hpairs.seq hfollows hjoin.frame hrows.frame hsimple.apart⟩
    | _ =>
      have hmerging := hown.kinds _ hmem
      rw [hkind] at hmerging
      contradiction

theorem joinLinks_follows {parent? : Option String} {relation joined : Relation}
    {deferred after : List Predicate} : (links : List PlannedLink) →
    Simple context (stepsAll parent? links) →
    context.joinLinks aliases parent? relation deferred links = .ok (joined, after) →
    ∃ rows added waiting nest, RowWise ((stepsAll parent? links).map (·.aliasName))
        (fun below deferred => context.joinLinks aliases parent? below deferred links) relation rows
        added waiting ∧
      Follows context aliases (stepsAll parent? links) rows nest waiting
  | [], hsimple, h => by
    simp only [joinLinks, stepsAll]
    exact ⟨_, _, _, _, RowWise.done [] relation, Follows.done⟩
  | link :: rest, hsimple, h => by
    unfold joinLinks at h
    obtain ⟨⟨middle, waiting⟩, hfirst, hrest⟩ := bind_eq_ok_iff.mp h
    obtain ⟨rows, added, filters, nest, hrow, hfollows⟩ :=
      joinLink_follows link hsimple.left hfirst
    obtain ⟨rfl, rfl⟩ := hrow.eq_of_ok hfirst
    obtain ⟨nextRows, nextAdded, nextFilters, nextNest, hnext, hnextFollows⟩ :=
      joinLinks_follows rest hsimple.right hrest
    simp only [joinLinks, stepsAll, List.map_append]
    exact ⟨_, _, _, _, hrow.seq hnext,
      hfollows.seq hnextFollows hrow.frame hnext.frame hsimple.apart⟩

end

end Context

end RecordQuery
