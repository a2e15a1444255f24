import RecordQuery.Proofs.Store.Histories
import RecordQuery.Proofs.Store.Lookup
import RecordQuery.Proofs.Store.Shelves

/-!
A store with an index, under any changes, is a list of records for each entity. The store that keeps
all records in one list is another, and the two answer alike.
-/

namespace RecordQuery

def Change.id : Change → Uuid
  | .insert record => record.id
  | .remove _ id => id

namespace IndexedStore

variable {store : IndexedStore} {changes : List Change} {entity : String} {id : Uuid}

def apply (store : IndexedStore) : Change → IndexedStore × Option Record
  | .insert record => store.insert record
  | .remove entity id => store.remove entity id

def after (changes : List Change) : IndexedStore :=
  changes.foldl (fun store change => (store.apply change).1) empty

theorem after_concat (changes : List Change) (change : Change) :
    after (changes ++ [change]) = ((after changes).apply change).1 := by
  rw [after, List.foldl_append]
  rfl

def InStep (store : IndexedStore) : Prop := ∀ entity, (store.shelf entity).InStep entity

theorem records_eq (store : IndexedStore) (entity : String) :
    store.records entity = (store.shelf entity).listed := by
  unfold records shelf
  cases store.entities.get? entity <;> rfl

theorem get?_eq (store : IndexedStore) (entity : String) (id : Uuid) :
    store.get? entity id = (store.shelf entity).records.get? id := by
  unfold get? shelf
  cases store.entities.get? entity <;> rfl

theorem count_eq (store : IndexedStore) (entity : String) :
    store.count entity = (store.shelf entity).records.size := by
  unfold count shelf
  cases store.entities.get? entity <;> rfl

theorem shelf_set (shelf : EntityRecords) (other : String) :
    IndexedStore.shelf ⟨store.entities.set entity shelf⟩ other =
      if other = entity then shelf else store.shelf other := by
  unfold IndexedStore.shelf
  rw [Index.get?_set]
  split <;> rfl

theorem shelf_insert (record : Record) (entity : String) :
    (store.insert record).1.shelf entity =
      if entity = record.entity then (store.shelf entity).insert record else store.shelf entity := by
  rw [insert, shelf_set]
  split
  · rename_i hentity
    rw [hentity]
  · rfl

theorem shelf_remove (other entity : String) (id : Uuid) :
    (store.remove other id).1.shelf entity =
      if entity = other ∧ (store.get? other id).isSome then (store.shelf entity).remove id
      else store.shelf entity := by
  unfold remove get?
  cases hshelf : store.entities.get? other with
  | none => simp
  | some shelf =>
    have hthere : store.shelf other = shelf := by rw [IndexedStore.shelf, hshelf, Option.getD_some]
    cases hget : shelf.records.get? id with
    | none => simp [hget]
    | some removed =>
      simp only [Option.bind_some, hget, Option.isSome_some, and_true, shelf_set]
      split
      · rename_i hentity
        rw [hentity, hthere]
      · rfl

theorem returned (store : IndexedStore) (change : Change) :
    (store.apply change).2 = store.get? change.entity change.id := by
  cases change with
  | insert record => exact (store.get?_eq record.entity record.id).symm
  | remove entity id =>
    change (store.remove entity id).2 = store.get? entity id
    unfold remove get?
    cases store.entities.get? entity with
    | none => rfl
    | some shelf =>
      rw [Option.bind_some]
      cases hget : shelf.records.get? id with
      | none => simp [hget]
      | some removed => simp [hget]

theorem inStep_empty : empty.InStep := EntityRecords.inStep_empty

namespace InStep

variable (h : store.InStep)

include h

theorem apply (change : Change) : (store.apply change).1.InStep := by
  intro entity
  cases change with
  | insert record =>
    rw [IndexedStore.apply, shelf_insert]
    split
    · rename_i hentity
      exact (h entity).insert hentity.symm
    · exact h entity
  | remove other id =>
    rw [IndexedStore.apply, shelf_remove]
    split
    · exact (h entity).remove id
    · exact h entity

theorem records_apply (change : Change) (entity : String) :
    (store.apply change).1.records entity = change.onListed entity (store.records entity) := by
  rw [records_eq, records_eq]
  cases change with
  | insert record =>
    rw [IndexedStore.apply, shelf_insert, Change.onListed]
    by_cases hentity : record.entity = entity
    · rw [if_pos hentity.symm, if_pos hentity, (h entity).listed_insert]
    · rw [if_neg (Ne.symm hentity), if_neg hentity]
  | remove other id =>
    rw [IndexedStore.apply, shelf_remove, Change.onListed]
    by_cases hentity : other = entity
    · subst hentity
      rw [if_pos rfl]
      split
      · exact (h other).listed_remove id
      · rename_i hgone
        symm
        rw [List.filter_eq_self]
        intro record hrecord
        rw [bne_iff_ne]
        rintro rfl
        rw [get?_eq, (h other).mem_listed.mp hrecord] at hgone
        simp at hgone
    · rw [if_neg hentity, if_neg fun hboth => hentity hboth.1.symm]

theorem get?_eq_find? (entity : String) (id : Uuid) :
    store.get? entity id = (store.records entity).find? (·.id == id) := by
  rw [get?_eq, records_eq, (h entity).get?_eq_find?]

theorem count_eq_length (entity : String) :
    store.count entity = (store.records entity).length := by
  rw [count_eq, records_eq, (h entity).size_records]

end InStep

theorem size_eq_sum (store : IndexedStore) :
    store.size = totalOf (store.entities.keys.map store.count) := by
  rw [size, Index.values, Index.keys, List.map_map, List.map_map]
  congr 1
  apply List.map_congr_left
  intro entry hentry
  simp only [Function.comp_apply, count, Index.get?_of_mem hentry]

theorem count_eq_zero (hentity : entity ∉ store.entities.keys) : store.count entity = 0 := by
  rw [Index.mem_keys_iff, Option.not_isSome_iff_eq_none] at hentity
  rw [count, hentity]

theorem after_inStep (changes : List Change) : (after changes).InStep := by
  induction changes using List.reverseRecOn with
  | nil => exact inStep_empty
  | append_singleton changes change ih => rw [after_concat]; exact ih.apply change

theorem after_listing (changes : List Change) (entity : String) :
    Listing changes entity ((after changes).records entity) := by
  induction changes using List.reverseRecOn with
  | nil => exact Listing.nil entity
  | append_singleton changes change ih =>
    rw [after_concat, (after_inStep changes).records_apply]
    exact ih.step change

end IndexedStore

namespace Store

def apply (store : Store) : Change → Store × Option Record
  | .insert record => store.insert record
  | .remove entity id => store.remove entity id

def after (changes : List Change) : Store :=
  changes.foldl (fun store change => (store.apply change).1) empty

theorem after_concat (changes : List Change) (change : Change) :
    after (changes ++ [change]) = ((after changes).apply change).1 := by
  rw [after, List.foldl_append]
  rfl

theorem filter_putRow {record : Record} {rows : List Record} (entity : String)
    (hrows : rows.Pairwise fun a b => a.isAt b.entity b.id = false) :
    (putRow record rows).filter (·.entity == entity) =
      if record.entity = entity then record.placedIn (rows.filter (·.entity == entity))
      else rows.filter (·.entity == entity) := by
  induction rows with
  | nil => by_cases hentity : record.entity = entity <;> simp [putRow, Record.placedIn, hentity]
  | cons row rest ih =>
    obtain ⟨hrow, hrest⟩ := List.pairwise_cons.mp hrows
    specialize ih hrest
    unfold putRow
    split
    · rename_i hat
      obtain ⟨hsame, hid⟩ := Record.isAt_iff.mp hat
      by_cases hentity : record.entity = entity
      · have hfresh : record.id ∉ (rest.filter (·.entity == entity)).map (·.id) := by
          intro hmem
          obtain ⟨other, hother, hotherId⟩ := List.mem_map.mp hmem
          obtain ⟨hother, hotherEntity⟩ := List.mem_filter.mp hother
          refine Bool.eq_false_iff.mp (hrow other hother) (Record.isAt_iff.mpr ⟨?_, ?_⟩)
          · rw [hsame, hentity, beq_iff_eq.mp hotherEntity]
          · rw [hid, hotherId]
        rw [if_pos hentity, List.filter_cons_of_pos (by simpa using hentity),
          List.filter_cons_of_pos (by simpa [hsame] using hentity),
          Record.placedIn_cons_of_eq hid hfresh]
      · rw [if_neg hentity, List.filter_cons_of_neg (by simpa using hentity),
          List.filter_cons_of_neg (by simpa [hsame] using hentity)]
    · rename_i hat
      by_cases hrowEntity : row.entity = entity
      · rw [List.filter_cons_of_pos (by simpa using hrowEntity),
          List.filter_cons_of_pos (by simpa using hrowEntity), ih]
        by_cases hentity : record.entity = entity
        · have hid : row.id ≠ record.id := fun hid =>
            hat (Record.isAt_iff.mpr ⟨hrowEntity.trans hentity.symm, hid⟩)
          rw [if_pos hentity, if_pos hentity, Record.placedIn_cons_of_ne hid]
        · rw [if_neg hentity, if_neg hentity]
      · rw [List.filter_cons_of_neg (by simpa using hrowEntity),
          List.filter_cons_of_neg (by simpa using hrowEntity), ih]

theorem records_apply (store : Store) (change : Change) (entity : String) :
    (store.apply change).1.records entity = change.onListed entity (store.records entity) := by
  cases change with
  | insert record => exact filter_putRow entity store.distinct
  | remove other id =>
    change (store.rows.filter _).filter _ = _
    rw [Change.onListed, records]
    by_cases hentity : other = entity
    · subst hentity
      rw [if_pos rfl, List.filter_filter, List.filter_filter]
      apply List.filter_congr
      intro row _
      by_cases hrow : row.entity = other
      · simp [Record.isAt, hrow, bne]
      · simp [Record.isAt, beq_eq_false_iff_ne.mpr hrow]
    · rw [if_neg hentity, List.filter_filter]
      apply List.filter_congr
      intro row _
      by_cases hrow : row.entity = entity
      · simp [Record.isAt, hrow, Ne.symm hentity]
      · simp [hrow]

theorem records_after (changes : List Change) (entity : String) :
    (after changes).records entity = (IndexedStore.after changes).records entity := by
  induction changes using List.reverseRecOn with
  | nil => rfl
  | append_singleton changes change ih =>
    rw [after_concat, IndexedStore.after_concat, records_apply, ih,
      (IndexedStore.after_inStep changes).records_apply]

end Store

structure IndexedStore.Refines (store : IndexedStore) (changes : List Change) : Prop where
  nodup_order : ∀ entity, (store.shelf entity).order.Nodup
  mem_order : ∀ entity id,
    id ∈ (store.shelf entity).order ↔ id ∈ (store.shelf entity).records.keys
  ids : ∀ entity, (store.records entity).map (·.id) = (store.shelf entity).order
  listing : ∀ entity, Listing changes entity (store.records entity)
  returned : ∀ change, (store.apply change).2 =
    (store.records change.entity).find? (·.id == change.id)
  records_apply : ∀ change entity,
    (store.apply change).1.records entity = change.onListed entity (store.records entity)
  get? : ∀ entity id, store.get? entity id = (store.records entity).find? (·.id == id)
  count : ∀ entity, store.count entity = (store.records entity).length
  nodup_entities : store.entities.keys.Nodup
  entities : ∀ entity, entity ∉ store.entities.keys → store.count entity = 0
  size : store.size = totalOf (store.entities.keys.map store.count)
  alike : ∀ entity id, (Store.after changes).records entity = store.records entity ∧
    (Store.after changes).get? entity id = store.get? entity id

theorem IndexedStore.after_refines (changes : List Change) : (after changes).Refines changes where
  nodup_order entity := (after_inStep changes entity).nodup
  mem_order entity id := by rw [(after_inStep changes entity).mem_order, Index.mem_keys_iff]
  ids entity := by rw [records_eq, (after_inStep changes entity).map_id_listed]
  listing := after_listing changes
  returned change := by rw [IndexedStore.returned, (after_inStep changes).get?_eq_find?]
  records_apply := (after_inStep changes).records_apply
  get? := (after_inStep changes).get?_eq_find?
  count := (after_inStep changes).count_eq_length
  nodup_entities := Index.nodup_keys _
  entities _ := count_eq_zero
  size := size_eq_sum _
  alike entity id := by
    rw [Store.get?_eq_find?, (after_inStep changes).get?_eq_find?, Store.records_after]
    exact ⟨rfl, rfl⟩

end RecordQuery
