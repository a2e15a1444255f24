import RecordQuery.Record

namespace RecordQuery

def Record.isAt (record : Record) (entity : String) (id : Uuid) : Bool :=
  record.entity == entity && record.id == id

structure Store where
  rows : List Record
  distinct : rows.Pairwise fun a b => a.isAt b.entity b.id = false

namespace Store

def empty : Store := ⟨[], .nil⟩

instance : Inhabited Store := ⟨empty⟩

def get? (store : Store) (entity : String) (id : Uuid) : Option Record :=
  store.rows.find? fun record => record.isAt entity id

def records (store : Store) (entity : String) : List Record :=
  store.rows.filter fun record => record.entity == entity

def count (store : Store) (entity : String) : Nat :=
  (store.records entity).length

def size (store : Store) : Nat := store.rows.length

def isEmpty (store : Store) : Bool := store.rows.isEmpty

def putRow (record : Record) : List Record → List Record
  | [] => [record]
  | row :: rest =>
    if row.isAt record.entity record.id then record :: rest else row :: putRow record rest

theorem mem_putRow {record row : Record} {rows : List Record} (h : row ∈ putRow record rows) :
    row = record ∨ row ∈ rows := by
  induction rows with
  | nil => simpa [putRow] using h
  | cons first rest ih =>
    unfold putRow at h
    split at h
    · rcases List.mem_cons.1 h with h | h
      · exact .inl h
      · exact .inr (List.mem_cons_of_mem _ h)
    · rcases List.mem_cons.1 h with h | h
      · exact .inr (h ▸ List.mem_cons_self)
      · exact (ih h).imp_right (List.mem_cons_of_mem _)

theorem isAt_congr {a b : Record} {entity : String} {id : Uuid} (h : a.isAt b.entity b.id = true) :
    a.isAt entity id = b.isAt entity id := by
  simp only [Record.isAt, Bool.and_eq_true, beq_iff_eq] at h
  simp [Record.isAt, h.1, h.2]

theorem putRow_distinct {record : Record} {rows : List Record}
    (h : rows.Pairwise fun a b => a.isAt b.entity b.id = false) :
    (putRow record rows).Pairwise fun a b => a.isAt b.entity b.id = false := by
  induction rows with
  | nil => simp [putRow]
  | cons first rest ih =>
    rw [List.pairwise_cons] at h
    unfold putRow
    split
    · rename_i here
      exact List.pairwise_cons.2
        ⟨fun row member => (isAt_congr here).symm.trans (h.1 row member), h.2⟩
    · rename_i elsewhere
      refine List.pairwise_cons.2 ⟨fun row member => ?_, ih h.2⟩
      rcases mem_putRow member with rfl | member
      · simpa using elsewhere
      · exact h.1 row member

def insert (store : Store) (record : Record) : Store × Option Record :=
  (⟨putRow record store.rows, putRow_distinct store.distinct⟩,
    store.get? record.entity record.id)

def remove (store : Store) (entity : String) (id : Uuid) : Store × Option Record :=
  (⟨store.rows.filter fun record => !record.isAt entity id, store.distinct.filter _⟩,
    store.get? entity id)

def ofList (records : List Record) : Store :=
  records.foldl (fun store record => (store.insert record).1) empty

end Store

end RecordQuery
