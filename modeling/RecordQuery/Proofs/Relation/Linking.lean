import RecordQuery.Evaluation
import RecordQuery.Proofs.Predicate.Relaxed
import RecordQuery.Proofs.Record.Merge
import RecordQuery.Proofs.Relation.KeyTables

/-!
Joining works row by row: what becomes of a row under some links does not depend on the rows beside
it, and the filters that wait do not depend on the rows at all. A row keeps everything but the names
that are qualified by the aliases of the links.
-/

namespace RecordQuery

def Frame (names : List String) (rows : Record → List Record) : Prop :=
  ∀ record, ∀ row ∈ rows record, ∀ key,
    (∀ aliasName ∈ names, ∀ name, key ≠ Record.qualify aliasName name) →
      row.get? key = record.get? key

structure RowWise (names : List String)
    (run : Relation → List Predicate → Except Error (Relation × List Predicate))
    (relation : Relation) (rows : Record → List Record) (added : List String)
    (waiting : List Predicate) : Prop where
  run_eq : ∀ below deferred, below.records ⊆ relation.records →
    run below deferred = .ok (⟨below.records.flatMap rows, below.aliases ++ added⟩,
      deferred ++ waiting)
  frame : Frame names rows

namespace RowWise

theorem done (names : List String) (relation : Relation) :
    RowWise names (fun below deferred => .ok (below, deferred)) relation (fun record => [record]) []
      [] := by
  constructor
  · intro below deferred _
    simp
  · intro record row hrow key _
    rw [List.mem_singleton.mp hrow]

theorem seq {names others : List String}
    {run next : Relation → List Predicate → Except Error (Relation × List Predicate)}
    {relation : Relation} {rows nextRows : Record → List Record} {added nextAdded : List String}
    {waiting nextWaiting : List Predicate} (h : RowWise names run relation rows added waiting)
    (hnext : RowWise others next ⟨relation.records.flatMap rows, relation.aliases ++ added⟩ nextRows
      nextAdded nextWaiting) :
    RowWise (names ++ others) (fun below deferred => do
        let (joined, after) ← run below deferred
        next joined after) relation
      (fun record => (rows record).flatMap nextRows) (added ++ nextAdded)
      (waiting ++ nextWaiting) := by
  constructor
  · intro below deferred hbelow
    have hrows : below.records.flatMap rows ⊆ relation.records.flatMap rows := by
      intro row hrow
      obtain ⟨record, hrecord, hmem⟩ := List.mem_flatMap.mp hrow
      exact List.mem_flatMap.mpr ⟨record, hbelow hrecord, hmem⟩
    simp only [h.run_eq below deferred hbelow, ok_bind]
    rw [hnext.run_eq _ _ hrows, List.flatMap_assoc, List.append_assoc, List.append_assoc]
  · intro record row hrow key hkey
    obtain ⟨middle, hmiddle, hrow⟩ := List.mem_flatMap.mp hrow
    rw [hnext.frame middle row hrow key fun aliasName hmem =>
        hkey aliasName (List.mem_append_right _ hmem),
      h.frame record middle hmiddle key fun aliasName hmem =>
        hkey aliasName (List.mem_append_left _ hmem)]

theorem eq_of_ok {names : List String}
    {run : Relation → List Predicate → Except Error (Relation × List Predicate)}
    {relation joined : Relation} {rows : Record → List Record} {added : List String}
    {waiting deferred after : List Predicate} (h : RowWise names run relation rows added waiting)
    (hok : run relation deferred = .ok (joined, after)) :
    ⟨relation.records.flatMap rows, relation.aliases ++ added⟩ = joined ∧
      deferred ++ waiting = after :=
  Prod.mk.inj (Except.ok.inj
    ((h.run_eq relation deferred (List.Subset.refl _)).symm.trans hok))

end RowWise

namespace Relation

theorem flatMap_ite {keep : Record → Bool} {f : Record → List Record} (records : List Record) :
    records.flatMap (fun record => if keep record then f record else []) =
      (records.filter keep).flatMap f := by
  induction records with
  | nil => rfl
  | cons record rest ih =>
    rw [List.flatMap_cons, ih, List.filter_cons]
    cases keep record <;> simp

theorem joinRow_frame {right : List Record} {leftColumn rightColumn aliasName : String} {outer : Bool}
    {record row : Record}
    (hrow : row ∈ joinRow right leftColumn rightColumn aliasName outer record) (key : String)
    (hkey : ∀ name, key ≠ Record.qualify aliasName name) : row.get? key = record.get? key := by
  unfold joinRow at hrow
  split at hrow
  · cases outer with
    | true =>
      rw [if_pos rfl] at hrow
      rw [List.mem_singleton.mp hrow]
    | false =>
      rw [if_neg (by decide)] at hrow
      contradiction
  · obtain ⟨other, -, rfl⟩ := List.mem_map.mp hrow
    exact Record.get?_merge_of_ne aliasName record other key hkey

end Relation

theorem RowWise.join (relation : Relation) (right : Relation)
    (leftColumn rightColumn aliasName : String) (outer : Bool) (waiting : List Predicate) :
    RowWise [aliasName]
      (fun below deferred =>
        .ok (below.join right leftColumn rightColumn aliasName outer, deferred ++ waiting))
      relation (Relation.joinRow right.records leftColumn rightColumn aliasName outer) [aliasName]
      waiting := by
  constructor
  · intro below deferred _
    rw [Relation.join_eq]
  · intro record row hrow key hkey
    exact Relation.joinRow_frame hrow key (hkey aliasName (List.mem_singleton_self aliasName))

namespace Record

def identity (record : Record) : String × Uuid := (record.entity, record.id)

theorem foldl_identity {α : Type} {step : Record → α → Record}
    (h : ∀ record item, (step record item).identity = record.identity) (items : List α)
    (record : Record) : (items.foldl step record).identity = record.identity := by
  induction items generalizing record with
  | nil => rfl
  | cons item rest ih => exact (ih _).trans (h record item)

theorem identity_merge (aliasName : String) (record other : Record) :
    (record.merge aliasName other).identity = record.identity := by
  apply foldl_identity
  exact fun record entry => rfl

end Record

theorem Relation.joinRow_identity {right : List Record} {leftColumn rightColumn aliasName : String}
    {outer : Bool} {record row : Record}
    (hrow : row ∈ joinRow right leftColumn rightColumn aliasName outer record) :
    row.identity = record.identity := by
  unfold joinRow at hrow
  split at hrow
  · cases outer with
    | true =>
      rw [if_pos rfl] at hrow
      rw [List.mem_singleton.mp hrow]
    | false => contradiction
  · obtain ⟨other, -, rfl⟩ := List.mem_map.mp hrow
    exact Record.identity_merge aliasName record other

/-- A step that turns each row into rows of its own, unless some row faults. -/
structure Pointwise (names : List String)
    (run : Relation → List Predicate → Except Error (Relation × List Predicate))
    (faulty : Record → Bool) (rows : Record → List Record) (added : List String)
    (waiting : List Predicate) : Prop where
  run_eq : ∀ relation deferred, run relation deferred =
    if relation.records.any faulty then .error .overflow
    else .ok (⟨relation.records.flatMap rows, relation.aliases ++ added⟩, deferred ++ waiting)
  frame : Frame names rows
  identity : ∀ record, ∀ row ∈ rows record, row.identity = record.identity

namespace Pointwise

variable {names others : List String}
  {run next : Relation → List Predicate → Except Error (Relation × List Predicate)}
  {faulty nextFaulty : Record → Bool} {rows nextRows : Record → List Record}
  {added nextAdded : List String} {waiting nextWaiting : List Predicate}

theorem done : Pointwise [] (fun relation deferred => .ok (relation, deferred)) (fun _ => false)
    (fun record => [record]) [] [] := by
  constructor
  · intro relation deferred
    simp
  · intro record row hrow key _
    rw [List.mem_singleton.mp hrow]
  · intro record row hrow
    rw [List.mem_singleton.mp hrow]

theorem any_or_any (faulty nextFaulty : Record → Bool) (rows : Record → List Record)
    (records : List Record) :
    (records.any fun record => faulty record || (rows record).any nextFaulty) =
      (records.any faulty || (records.flatMap rows).any nextFaulty) := by
  rw [List.any_flatMap]
  induction records with
  | nil => rfl
  | cons record rest ih =>
    simp only [List.any_cons, ih]
    cases faulty record <;> cases (rows record).any nextFaulty <;> simp

theorem seq (h : Pointwise names run faulty rows added waiting)
    (hnext : Pointwise others next nextFaulty nextRows nextAdded nextWaiting) :
    Pointwise (names ++ others) (fun relation deferred => do
        let (joined, after) ← run relation deferred
        next joined after)
      (fun record => faulty record || (rows record).any nextFaulty)
      (fun record => (rows record).flatMap nextRows) (added ++ nextAdded)
      (waiting ++ nextWaiting) := by
  constructor
  · intro relation deferred
    rw [h.run_eq, any_or_any]
    cases relation.records.any faulty with
    | true => rfl
    | false =>
      simp only [Bool.false_eq_true, if_false, Bool.false_or, ok_bind]
      rw [hnext.run_eq, List.flatMap_assoc, List.append_assoc, List.append_assoc]
  · intro record row hrow key hkey
    obtain ⟨middle, hmiddle, hrow⟩ := List.mem_flatMap.mp hrow
    rw [hnext.frame middle row hrow key fun aliasName hmem =>
        hkey aliasName (List.mem_append_right _ hmem),
      h.frame record middle hmiddle key fun aliasName hmem =>
        hkey aliasName (List.mem_append_left _ hmem)]
  · intro record row hrow
    obtain ⟨middle, hmiddle, hrow⟩ := List.mem_flatMap.mp hrow
    rw [hnext.identity middle row hrow, h.identity record middle hmiddle]

theorem join (right : Relation) (leftColumn rightColumn aliasName : String) (outer : Bool)
    (waiting : List Predicate) :
    Pointwise [aliasName]
      (fun relation deferred =>
        .ok (relation.join right leftColumn rightColumn aliasName outer, deferred ++ waiting))
      (fun _ => false) (Relation.joinRow right.records leftColumn rightColumn aliasName outer)
      [aliasName] waiting := by
  constructor
  · intro relation deferred
    simp [Relation.join_eq]
  · intro record row hrow key hkey
    exact Relation.joinRow_frame hrow key (hkey aliasName (List.mem_singleton_self aliasName))
  · exact fun record row hrow => Relation.joinRow_identity hrow

theorem existsJoin (right : Relation) (kind : JoinKind) (leftColumn rightColumn : String)
    (predicate : Predicate) :
    Pointwise []
      (fun relation deferred => do
        let kept ← relation.existsJoin right kind leftColumn rightColumn predicate
        return (kept, deferred))
      (fun record => Relation.keepFaults kind predicate
        (Relation.linked right.records leftColumn rightColumn record))
      (fun record => if Relation.keeps kind predicate
        (Relation.linked right.records leftColumn rightColumn record) then [record] else [])
      [] [] := by
  constructor
  · intro relation deferred
    rw [Relation.existsJoin_eq, Relation.flatMap_ite, List.flatMap_singleton', List.append_nil,
      List.append_nil]
    split <;> rfl
  · intro record row hrow key _
    dsimp only at hrow
    split at hrow
    · rw [List.mem_singleton.mp hrow]
    · contradiction
  · intro record row hrow
    split at hrow
    · rw [List.mem_singleton.mp hrow]
    · contradiction

theorem rowWise (h : Pointwise names run faulty rows added waiting) {relation : Relation}
    {deferred : List Predicate} {answer : Relation × List Predicate}
    (hok : run relation deferred = .ok answer) : RowWise names run relation rows added waiting := by
  constructor
  · intro below others hbelow
    have hnone : relation.records.any faulty = false := by
      cases hany : relation.records.any faulty with
      | true =>
        rw [h.run_eq, hany, if_pos rfl] at hok
        contradiction
      | false => rfl
    have hbelowNone : below.records.any faulty = false := by
      rw [List.any_eq_false] at hnone ⊢
      exact fun record hrecord => hnone record (hbelow hrecord)
    rw [h.run_eq, hbelowNone, if_neg Bool.false_ne_true]
  · exact h.frame

theorem eq_of_ok (h : Pointwise names run faulty rows added waiting) {relation joined : Relation}
    {deferred after : List Predicate} (hok : run relation deferred = .ok (joined, after)) :
    ⟨relation.records.flatMap rows, relation.aliases ++ added⟩ = joined ∧
      deferred ++ waiting = after :=
  (h.rowWise hok).eq_of_ok hok

end Pointwise

namespace Context

variable {context : Context} {aliases : AliasMap}

def waitingFilter (context : Context) (aliases : AliasMap) (filter : Filter) (scope : Scope) :
    Except Error (List Predicate) :=
  if filter.isEmpty then .ok [] else (filter.compile context aliases scope).map fun p => [p]

section Kinds

variable (parent? : Option String) (relation : Relation) (deferred : List Predicate)
  (aliasName : String) (link : Link) (children : List PlannedLink)

theorem joinLink_inner (h : link.kind = .inner) :
    context.joinLink aliases parent? relation deferred ⟨aliasName, link, children⟩ = (do
      let right ← context.scan link.entity
      let waiting ← context.waitingFilter aliases link.filter (.link link.entity aliasName)
      context.joinLinks aliases (some aliasName)
        (relation.join right (Accessor.qualifiedBy parent? link.source) link.target aliasName false)
        (deferred ++ waiting) children) := by
  simp only [joinLink, h]
  congr 1
  funext right
  cases hempty : link.filter.isEmpty with
  | true => simp [waitingFilter, hempty]
  | false =>
    simp only [waitingFilter, hempty]
    cases link.filter.compile context aliases (.link link.entity aliasName) <;> rfl

theorem joinLink_leftOuter (h : link.kind = .leftOuter) :
    context.joinLink aliases parent? relation deferred ⟨aliasName, link, children⟩ = (do
      let right ← context.scan link.entity
      let predicate ← link.filter.compile context aliases (.root link.entity)
      let admitted ← right.filter predicate
      let waiting ← context.waitingFilter aliases link.filter.relaxed (.link link.entity aliasName)
      context.joinLinks aliases (some aliasName)
        (relation.join admitted (Accessor.qualifiedBy parent? link.source) link.target aliasName true)
        (deferred ++ waiting) children) := by
  simp only [joinLink, h]
  congr 1
  funext right
  congr 1
  funext predicate
  congr 1
  funext admitted
  cases hempty : link.filter.isEmpty with
  | true => simp [waitingFilter, Filter.isEmpty_relaxed, hempty]
  | false =>
    simp only [waitingFilter, Filter.isEmpty_relaxed, hempty]
    cases link.filter.relaxed.compile context aliases (.link link.entity aliasName) <;> rfl

theorem joinLink_existential (h : link.kind.isExistential = true) :
    context.joinLink aliases parent? relation deferred ⟨aliasName, link, children⟩ = (do
      let right ← context.scan link.entity
      let predicate ← link.filter.compile context aliases (.root link.entity)
      let (linked, inner) ← context.joinLinks aliases none right [predicate] children
      let kept ← relation.existsJoin linked link.kind (Accessor.qualifiedBy parent? link.source)
        link.target (Predicate.conjunction inner)
      return (kept, deferred)) := by
  unfold joinLink
  cases hkind : link.kind with
  | inner => simp [hkind, JoinKind.isExistential] at h
  | leftOuter => simp [hkind, JoinKind.isExistential] at h
  | _ => rfl

end Kinds

mutual

theorem joinLink_pointwise {parent? : Option String} {relation joined : Relation}
    {deferred after : List Predicate} : (planned : PlannedLink) →
    context.joinLink aliases parent? relation deferred planned = .ok (joined, after) →
    ∃ faulty rows added waiting, Pointwise (planned.merged.map (·.aliasName))
      (fun below deferred => context.joinLink aliases parent? below deferred planned) faulty rows
      added waiting
  | ⟨aliasName, link, children⟩, h => by
    cases hkind : link.kind with
    | inner =>
      simp only [joinLink_inner _ _ _ _ _ _ hkind] at h
      obtain ⟨right, hright, h⟩ := bind_eq_ok_iff.mp h
      obtain ⟨waiting, hwaiting, h⟩ := bind_eq_ok_iff.mp h
      obtain ⟨faulty, rows, added, filters, hrows⟩ := joinLinks_pointwise children h
      simp only [joinLink_inner _ _ _ _ _ _ hkind, hright, hwaiting, ok_bind, PlannedLink.merged,
        hkind, JoinKind.isExistential, Bool.false_eq_true, if_false, List.map_cons]
      exact ⟨_, _, _, _, (Pointwise.join right _ _ aliasName false waiting).seq hrows⟩
    | leftOuter =>
      simp only [joinLink_leftOuter _ _ _ _ _ _ hkind] at h
      obtain ⟨right, hright, h⟩ := bind_eq_ok_iff.mp h
      obtain ⟨predicate, hpredicate, h⟩ := bind_eq_ok_iff.mp h
      obtain ⟨admitted, hadmitted, h⟩ := bind_eq_ok_iff.mp h
      obtain ⟨waiting, hwaiting, h⟩ := bind_eq_ok_iff.mp h
      obtain ⟨faulty, rows, added, filters, hrows⟩ := joinLinks_pointwise children h
      simp only [joinLink_leftOuter _ _ _ _ _ _ hkind, hright, hpredicate, hadmitted, hwaiting,
        ok_bind, PlannedLink.merged, hkind, JoinKind.isExistential, Bool.false_eq_true, if_false,
        List.map_cons]
      exact ⟨_, _, _, _, (Pointwise.join admitted _ _ aliasName true waiting).seq hrows⟩
    | _ =>
      -- What is joined inside decides which rows stay, and adds nothing to them.
      have hexistential : link.kind.isExistential = true := by
        rw [hkind]
        rfl
      simp only [joinLink_existential _ _ _ _ _ _ hexistential] at h
      obtain ⟨right, hright, h⟩ := bind_eq_ok_iff.mp h
      obtain ⟨predicate, hpredicate, h⟩ := bind_eq_ok_iff.mp h
      obtain ⟨⟨linked, inner⟩, hlinked, -⟩ := bind_eq_ok_iff.mp h
      simp only [joinLink_existential _ _ _ _ _ _ hexistential, hright, hpredicate, hlinked, ok_bind,
        PlannedLink.merged, hexistential, if_true, List.map_nil]
      exact ⟨_, _, _, _, Pointwise.existsJoin linked _ _ _ _⟩

theorem joinLinks_pointwise {parent? : Option String} {relation joined : Relation}
    {deferred after : List Predicate} : (links : List PlannedLink) →
    context.joinLinks aliases parent? relation deferred links = .ok (joined, after) →
    ∃ faulty rows added waiting, Pointwise ((PlannedLink.mergedAll links).map (·.aliasName))
      (fun below deferred => context.joinLinks aliases parent? below deferred links) faulty rows
      added waiting
  | [], _ => by
    simp only [joinLinks]
    exact ⟨_, _, _, _, Pointwise.done⟩
  | link :: rest, h => by
    unfold joinLinks at h
    obtain ⟨⟨middle, waiting⟩, hfirst, hrest⟩ := bind_eq_ok_iff.mp h
    obtain ⟨faulty, rows, added, filters, hrow⟩ := joinLink_pointwise link hfirst
    obtain ⟨_, _, _, _, hnext⟩ := joinLinks_pointwise rest hrest
    simp only [joinLinks, PlannedLink.mergedAll, List.map_append]
    exact ⟨_, _, _, _, hrow.seq hnext⟩

end

theorem joinLinks_rowWise {parent? : Option String} {relation joined : Relation}
    {deferred after : List Predicate} (links : List PlannedLink)
    (h : context.joinLinks aliases parent? relation deferred links = .ok (joined, after)) :
    ∃ rows added waiting, RowWise ((PlannedLink.mergedAll links).map (·.aliasName))
      (fun below deferred => context.joinLinks aliases parent? below deferred links) relation rows
      added waiting := by
  obtain ⟨faulty, rows, added, waiting, hrows⟩ := joinLinks_pointwise links h
  exact ⟨rows, added, waiting, hrows.rowWise h⟩

end Context

end RecordQuery
