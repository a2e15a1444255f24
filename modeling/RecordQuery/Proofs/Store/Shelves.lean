import Mathlib.Data.List.Perm.Basic
import RecordQuery.Proofs.Store.Histories
import RecordQuery.Store.Indexed

namespace RecordQuery

namespace Index

variable {κ ν : Type} {index : Index κ ν}

theorem nodup_keys (index : Index κ ν) : index.keys.Nodup :=
  List.pairwise_map.mpr index.distinct

variable [DecidableEq κ]

theorem get?_of_mem {entry : κ × ν} (h : entry ∈ index.entries) :
    index.get? entry.1 = some entry.2 := by
  obtain ⟨front, behind, hsplit⟩ := List.append_of_mem h
  have hdistinct := index.distinct
  rw [hsplit, List.pairwise_append] at hdistinct
  rw [get?, List.lookup_eq_some_iff]
  refine ⟨front, behind, hsplit, fun other hother => ?_⟩
  have hne := hdistinct.2.2 other hother entry List.mem_cons_self
  simpa using hne.symm

theorem mem_keys_iff {key : κ} : key ∈ index.keys ↔ (index.get? key).isSome = true := by
  constructor
  · intro h
    obtain ⟨entry, hentry, rfl⟩ := List.mem_map.mp h
    rw [get?_of_mem hentry, Option.isSome_some]
  · intro h
    obtain ⟨value, hvalue⟩ := Option.isSome_iff_exists.mp h
    obtain ⟨front, behind, hsplit, -⟩ := List.lookup_eq_some_iff.mp hvalue
    exact List.mem_map.mpr ⟨(key, value), by simp [hsplit], rfl⟩

end Index

namespace EntityRecords

variable {shelf : EntityRecords} {entity : String} {record : Record} {id : Uuid}

structure InStep (shelf : EntityRecords) (entity : String) : Prop where
  nodup : shelf.order.Nodup
  mem_order : ∀ id, id ∈ shelf.order ↔ (shelf.records.get? id).isSome = true
  filed : ∀ id record, shelf.records.get? id = some record →
    record.entity = entity ∧ record.id = id

theorem inStep_empty (entity : String) : empty.InStep entity where
  nodup := List.nodup_nil
  mem_order id := by simp [empty]
  filed id record h := by simp [empty] at h

namespace InStep

variable (h : shelf.InStep entity)

include h

theorem insert (hrecord : record.entity = entity) : (shelf.insert record).InStep entity := by
  have hfiled : ∀ id other, (shelf.records.set record.id record).get? id = some other →
      other.entity = entity ∧ other.id = id := by
    intro id other hother
    rw [Index.get?_set] at hother
    split at hother
    · rename_i hid
      obtain rfl := Option.some.inj hother
      exact ⟨hrecord, hid.symm⟩
    · exact h.filed id other hother
  unfold EntityRecords.insert
  split
  · rename_i hold
    refine ⟨h.nodup, fun id => ?_, hfiled⟩
    rw [Index.get?_set, h.mem_order]
    by_cases hid : id = record.id
    · simp [hid, hold]
    · simp [hid]
  · rename_i hnew
    have hfresh : record.id ∉ shelf.order := fun hmem => hnew ((h.mem_order _).mp hmem)
    refine ⟨?_, fun id => ?_, hfiled⟩
    · exact List.nodup_append.mpr ⟨h.nodup, List.pairwise_singleton _ _, by
        intro a ha b hb
        rw [List.mem_singleton.mp hb]
        rintro rfl
        exact hfresh ha⟩
    · rw [Index.get?_set, List.mem_append, List.mem_singleton, h.mem_order]
      by_cases hid : id = record.id
      · simp [hid]
      · simp [hid]

theorem remove (id : Uuid) : (shelf.remove id).InStep entity where
  nodup := h.nodup.filter _
  mem_order other := by
    rw [EntityRecords.remove, List.mem_filter, h.mem_order, Index.get?_erase]
    by_cases hid : other = id <;> simp [hid]
  filed other record hrecord := by
    rw [EntityRecords.remove, Index.get?_erase] at hrecord
    split at hrecord
    · contradiction
    · exact h.filed other record hrecord

theorem mem_listed : record ∈ shelf.listed ↔ shelf.records.get? record.id = some record := by
  rw [listed, List.mem_filterMap]
  constructor
  · rintro ⟨id, -, hget⟩
    rwa [(h.filed id record hget).2]
  · intro hget
    exact ⟨record.id, (h.mem_order _).mpr (by rw [hget]; rfl), hget⟩

theorem map_id_listed : shelf.listed.map (·.id) = shelf.order := by
  have hid : ∀ id ∈ shelf.order, (shelf.records.get? id).map (·.id) = some id := by
    intro id hmem
    obtain ⟨record, hrecord⟩ := Option.isSome_iff_exists.mp ((h.mem_order id).mp hmem)
    rw [hrecord, Option.map_some, (h.filed id record hrecord).2]
  rw [listed, List.map_filterMap, List.filterMap_congr hid, List.filterMap_some]

theorem get?_eq_find? (id : Uuid) :
    shelf.records.get? id = shelf.listed.find? (·.id == id) := by
  cases hget : shelf.records.get? id with
  | none =>
    symm
    rw [List.find?_eq_none]
    intro record hrecord hid
    rw [← beq_iff_eq.mp hid, h.mem_listed.mp hrecord] at hget
    contradiction
  | some record =>
    symm
    have hid := (h.filed id record hget).2
    have hmem : record ∈ shelf.listed := h.mem_listed.mpr (by rw [hid, hget])
    cases hfind : shelf.listed.find? (·.id == id) with
    | none =>
      rw [List.find?_eq_none] at hfind
      exact absurd (beq_iff_eq.mpr hid) (hfind record hmem)
    | some found =>
      have hfound := h.mem_listed.mp (List.mem_of_find?_eq_some hfind)
      have hid' : found.id = id := by simpa using List.find?_some hfind
      rw [hid', hget] at hfound
      exact hfound.symm

theorem size_records : shelf.records.size = shelf.listed.length := by
  have hperm : shelf.records.keys.Perm shelf.order := by
    rw [List.perm_ext_iff_of_nodup (Index.nodup_keys _) h.nodup]
    intro id
    rw [Index.mem_keys_iff, h.mem_order]
  have hlength := hperm.length_eq
  rw [← h.map_id_listed, List.length_map, Index.keys, List.length_map] at hlength
  exact hlength

theorem listed_insert (record : Record) :
    (shelf.insert record).listed = record.placedIn shelf.listed := by
  have hplace : record.id ∈ shelf.listed.map (·.id) ↔
      (shelf.records.get? record.id).isSome = true := by
    rw [h.map_id_listed, h.mem_order]
  unfold EntityRecords.insert Record.placedIn
  by_cases hold : (shelf.records.get? record.id).isSome = true
  · rw [if_pos hold, if_pos (hplace.mpr hold), listed, listed, List.map_filterMap]
    apply List.filterMap_congr
    intro id hmem
    obtain ⟨old, hget⟩ := Option.isSome_iff_exists.mp ((h.mem_order id).mp hmem)
    rw [Index.get?_set, hget, Option.map_some, (h.filed id old hget).2]
    split <;> rfl
  · have hkept : shelf.order.filterMap (shelf.records.set record.id record).get? = shelf.listed := by
      apply List.filterMap_congr
      intro id hmem
      rw [Index.get?_set, if_neg]
      rintro rfl
      exact hold ((h.mem_order _).mp hmem)
    rw [if_neg hold, if_neg fun hmem => hold (hplace.mp hmem), listed, List.filterMap_append, hkept]
    simp

theorem listed_remove (id : Uuid) :
    (shelf.remove id).listed = shelf.listed.filter (·.id != id) := by
  rw [listed, EntityRecords.remove, listed, List.filterMap_filter, List.filter_filterMap]
  apply List.filterMap_congr
  intro other hmem
  obtain ⟨record, hrecord⟩ := Option.isSome_iff_exists.mp ((h.mem_order other).mp hmem)
  rw [Index.get?_erase, hrecord, Option.filter_some, (h.filed other record hrecord).2]
  by_cases hid : other = id <;> simp [hid]

end InStep

end EntityRecords

end RecordQuery
