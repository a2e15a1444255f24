import Mathlib.Data.List.Nodup
import RecordQuery.Store

namespace RecordQuery

theorem Record.isAt_iff {record : Record} {entity : String} {id : Uuid} :
    record.isAt entity id = true ↔ record.entity = entity ∧ record.id = id := by
  simp [Record.isAt]

namespace Store

variable {store : Store} {entity : String} {id : Uuid} {record : Record}

theorem mem_records : record ∈ store.records entity ↔
    record ∈ store.rows ∧ record.entity = entity := by
  rw [records, List.mem_filter, beq_iff_eq]

theorem nodup_ids (store : Store) (entity : String) :
    ((store.records entity).map (·.id)).Nodup := by
  rw [List.Nodup, List.pairwise_map]
  refine (store.distinct.filter _).imp_of_mem ?_
  intro a b ha hb hab hid
  have hentity : a.entity = b.entity :=
    (mem_records.mp ha).2.trans (mem_records.mp hb).2.symm
  exact Bool.eq_false_iff.mp hab (Record.isAt_iff.mpr ⟨hentity, hid⟩)

theorem get?_eq_find? (store : Store) (entity : String) (id : Uuid) :
    store.get? entity id = (store.records entity).find? (·.id == id) := by
  rw [records, List.find?_filter, get?]
  congr 1
  funext row
  by_cases hentity : row.entity = entity <;> by_cases hid : row.id = id <;>
    simp [Record.isAt, hentity, hid]

theorem get?_eq_some_iff : store.get? entity id = some record ↔
    record ∈ store.records entity ∧ record.id = id := by
  rw [get?_eq_find?]
  constructor
  · intro h
    exact ⟨List.mem_of_find?_eq_some h, by simpa using List.find?_some h⟩
  · rintro ⟨hrecord, rfl⟩
    have hsome : ((store.records entity).find? (·.id == record.id)).isSome = true :=
      List.find?_isSome.mpr ⟨record, hrecord, by simp⟩
    obtain ⟨found, hfound⟩ := Option.isSome_iff_exists.mp hsome
    have hid : found.id = record.id := by simpa using List.find?_some hfound
    rw [hfound, List.inj_on_of_nodup_map (store.nodup_ids entity)
      (List.mem_of_find?_eq_some hfound) hrecord hid]

end Store

end RecordQuery
