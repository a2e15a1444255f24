import RecordQuery.Evaluation
import RecordQuery.Proofs.Outcome
import RecordQuery.Proofs.Relation.StableSort

namespace RecordQuery

open SortKey

/-- A stable sort. By keys that do not order the rows it may return them in any order, or not return
at all. -/
structure Sorter where
  sort? : List SortKey → List Record → Option (List Record)
  perm : ∀ keys rows sorted, sort? keys rows = some sorted → sorted.Perm rows
  sortedBy : ∀ keys rows, Orders keys rows →
    ∃ sorted, sort? keys rows = some sorted ∧ Relation.SortedBy keys rows sorted

namespace Sorter

def stable : Sorter where
  sort? keys rows := some ((Relation.ofRecords rows).sort keys).records
  perm keys rows sorted h := by
    obtain rfl := Option.some.inj h
    exact Relation.sort_perm keys (.ofRecords rows)
  sortedBy keys rows h := ⟨_, rfl, Relation.sort_sortedBy (.ofRecords rows) h⟩

def wary : Sorter where
  sort? keys rows := if Orders keys rows then stable.sort? keys rows else none
  perm keys rows sorted h := by
    split at h
    · exact stable.perm keys rows sorted h
    · contradiction
  sortedBy keys rows h := by
    rw [if_pos h]
    exact stable.sortedBy keys rows h

theorem sort?_of_orders (sorter : Sorter) {keys : List SortKey} {relation : Relation}
    (h : Orders keys relation.records) :
    sorter.sort? keys relation.records = some (relation.sort keys).records := by
  obtain ⟨sorted, hsorted, hsortedBy⟩ := sorter.sortedBy keys relation.records h
  rw [hsorted, hsortedBy.unique (Relation.sort_sortedBy relation h)]

end Sorter

structure Unsorted where
  keys : List SortKey
  projection : Projection
  rows : Relation

namespace Context

variable {context : Context} {sorter : Sorter} {query : Query}

def unsorted (context : Context) (query : Query) : Except Error Unsorted := do
  let plan ← Plan.ofQuery context.catalog query
  let criteria ← query.criteria.compile context plan.aliases (.root query.entity)
  let keys ← context.sortKeys query plan
  let projection ← context.projection query plan
  let rows ← context.matchingRows plan criteria
  return ⟨keys, projection, rows⟩

def shown? (context : Context) (sorter : Sorter) (query : Query) (unsorted : Unsorted) :
    Option QueryResult :=
  (sorter.sort? unsorted.keys unsorted.rows.records).map fun sorted =>
    context.paged query ((unsorted.rows.withRecords sorted).project unsorted.projection)

def runWith (context : Context) (sorter : Sorter) (query : Query) :
    Except Error (Option QueryResult) :=
  if query.aggregate then (context.run query).map some
  else (context.unsorted query).map (context.shown? sorter query)

def Runs (context : Context) (sorter : Sorter) (query : Query) : Prop :=
  ∃ result, context.runWith sorter query = .ok (some result)

def SortsInOrder (context : Context) (query : Query) : Prop :=
  ∀ unsorted, context.unsorted query = .ok unsorted → Orders unsorted.keys unsorted.rows.records

theorem run_eq_unsorted (haggregate : query.aggregate = false) :
    context.run query = (context.unsorted query).map fun unsorted =>
      context.paged query ((unsorted.rows.sort unsorted.keys).project unsorted.projection) := by
  unfold run unsorted
  simp only [shape, haggregate, Bool.false_eq_true, if_false, bind_assoc, pure_eq_ok, ok_bind,
    shaped, bind_map]
  rfl

theorem runWith_stable (context : Context) (query : Query) :
    context.runWith .stable query = (context.run query).map some := by
  unfold runWith
  split
  · rfl
  · rename_i haggregate
    rw [Bool.not_eq_true] at haggregate
    rw [run_eq_unsorted haggregate]
    cases context.unsorted query <;> rfl

theorem runWith_eq_run (sorter : Sorter) (h : context.SortsInOrder query) :
    context.runWith sorter query = (context.run query).map some := by
  rw [← runWith_stable]
  unfold runWith
  split
  · rfl
  · cases hunsorted : context.unsorted query with
    | error fault => rfl
    | ok unsorted =>
      have horders := h unsorted hunsorted
      simp only [Except.map, shown?, sorter.sort?_of_orders horders,
        Sorter.stable.sort?_of_orders horders]

theorem exists_shown? (sorter : Sorter) (query : Query) (unsorted : Unsorted)
    (h : Orders unsorted.keys unsorted.rows.records) :
    ∃ result, context.shown? sorter query unsorted = some result := by
  rw [shown?, sorter.sort?_of_orders h]
  exact ⟨_, rfl⟩

section Unsorted

variable {answer : Except Error Relation} {keys : List SortKey} {projection : Projection}
  (haggregate : query.aggregate = false)
  (h : context.unsorted query = answer.map (Unsorted.mk keys projection))

include haggregate h

theorem runWith_of_unsorted (sorter : Sorter) :
    context.runWith sorter query =
      answer.map fun rows => context.shown? sorter query ⟨keys, projection, rows⟩ := by
  rw [runWith, haggregate, if_neg Bool.false_ne_true, h]
  cases answer <;> rfl

theorem runWith_eq_ok_iff {result : QueryResult} :
    context.runWith sorter query = .ok (some result) ↔
      ∃ rows, answer = .ok rows ∧
        context.shown? sorter query ⟨keys, projection, rows⟩ = some result := by
  rw [runWith_of_unsorted haggregate h]
  exact map_eq_ok_iff

theorem runWith_ne_error (hanswer : ∀ fault, answer = .error fault → fault = .overflow)
    (sorter : Sorter) :
    ∀ fault, fault ≠ .overflow → context.runWith sorter query ≠ .error fault := by
  intro fault hne hfault
  rw [runWith_of_unsorted haggregate h, map_eq_error_iff] at hfault
  exact hne (hanswer fault hfault)

theorem exists_rows_of_runs (hruns : context.Runs sorter query) :
    ∃ rows, answer = .ok rows := by
  obtain ⟨result, hresult⟩ := hruns
  obtain ⟨rows, hrows, -⟩ := (runWith_eq_ok_iff haggregate h).mp hresult
  exact ⟨rows, hrows⟩

theorem runs_of_orders (sorter : Sorter) {rows : Relation} (hrows : answer = .ok rows)
    (horders : Orders keys rows.records) : context.Runs sorter query := by
  obtain ⟨result, hresult⟩ :=
    exists_shown? sorter query ⟨keys, projection, rows⟩ horders
  exact ⟨result, (runWith_eq_ok_iff haggregate h).mpr ⟨rows, hrows, hresult⟩⟩

end Unsorted

theorem exists_run_of_runs (h : context.Runs sorter query) :
    ∃ result, context.run query = .ok result := by
  obtain ⟨result, hresult⟩ := h
  unfold runWith at hresult
  split at hresult
  · obtain ⟨answer, hanswer, -⟩ := map_eq_ok_iff.mp hresult
    exact ⟨answer, hanswer⟩
  · rename_i haggregate
    obtain ⟨unsorted, hunsorted, -⟩ := map_eq_ok_iff.mp hresult
    rw [run_eq_unsorted (Bool.eq_false_iff.mpr haggregate), hunsorted]
    exact ⟨_, rfl⟩

end Context

end RecordQuery
