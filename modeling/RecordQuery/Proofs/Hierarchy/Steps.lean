import Mathlib.Logic.Relation
import RecordQuery.Hierarchy
import RecordQuery.Proofs.Store.Lookup

namespace RecordQuery

namespace Hierarchy

open Relation

variable {hierarchy : Hierarchy} {id parent lower upper : Uuid} {steps : Nat}

def Step (hierarchy : Hierarchy) (id parent : Uuid) : Prop :=
  hierarchy.parent? id = some parent

/-- The way up from `lower` meets `upper` after so many steps, and not before. -/
inductive Away (hierarchy : Hierarchy) (upper : Uuid) : Nat → Uuid → Prop where
  | here : hierarchy.Away upper 0 upper
  | under {steps : Nat} {id parent : Uuid} (ne : id ≠ upper) (step : hierarchy.Step id parent)
      (away : hierarchy.Away upper steps parent) : hierarchy.Away upper (steps + 1) id

theorem Step.unique {other : Uuid} (h : hierarchy.Step id parent)
    (hother : hierarchy.Step id other) : parent = other :=
  Option.some.inj (h.symm.trans hother)

theorem Away.transGen (h : hierarchy.Away upper (steps + 1) id) :
    TransGen hierarchy.Step id upper := by
  generalize hcount : steps + 1 = count at h
  induction h generalizing steps with
  | here => contradiction
  | @under rest id parent _ hstep haway ih =>
    cases rest with
    | zero =>
      cases haway
      exact .single hstep
    | succ rest => exact .head hstep (ih rfl)

def stored (hierarchy : Hierarchy) : List Uuid :=
  (hierarchy.store.records hierarchy.entity).map (·.id)

theorem length_stored (hierarchy : Hierarchy) :
    hierarchy.stored.length = hierarchy.store.count hierarchy.entity :=
  List.length_map _

theorem nodup_stored (hierarchy : Hierarchy) : hierarchy.stored.Nodup :=
  hierarchy.store.nodup_ids hierarchy.entity

theorem Step.stored (h : hierarchy.Step id parent) : id ∈ hierarchy.stored := by
  obtain ⟨record, hrecord, -⟩ := Option.bind_eq_some_iff.mp h
  obtain ⟨hmem, hid⟩ := Store.get?_eq_some_iff.mp hrecord
  exact List.mem_map.mpr ⟨record, hmem, hid⟩

theorem mem_children : id ∈ hierarchy.children parent ↔ hierarchy.Step id parent := by
  rw [children, List.mem_map, Step, parent?, Option.bind_eq_some_iff]
  refine exists_congr fun record => ?_
  rw [List.mem_filter, beq_iff_eq, Store.get?_eq_some_iff]
  exact and_right_comm

theorem nodup_children (hierarchy : Hierarchy) (parent : Uuid) :
    (hierarchy.children parent).Nodup :=
  hierarchy.nodup_stored.sublist (List.filter_sublist.map _)

end Hierarchy

end RecordQuery
