import RecordQuery.Index
import RecordQuery.Record

/-!
Stores with an index. For each entity the records are kept under their identifiers, and the
identifiers beside them, in the order in which they came.
-/

namespace RecordQuery

structure EntityRecords where
  order : List Uuid
  records : Index Uuid Record

namespace EntityRecords

def empty : EntityRecords := ⟨[], .empty⟩

def listed (shelf : EntityRecords) : List Record :=
  shelf.order.filterMap shelf.records.get?

def insert (shelf : EntityRecords) (record : Record) : EntityRecords :=
  let records := shelf.records.set record.id record
  if (shelf.records.get? record.id).isSome then ⟨shelf.order, records⟩
  else ⟨shelf.order ++ [record.id], records⟩

def remove (shelf : EntityRecords) (id : Uuid) : EntityRecords :=
  ⟨shelf.order.filter (· != id), shelf.records.erase id⟩

end EntityRecords

structure IndexedStore where
  entities : Index String EntityRecords

namespace IndexedStore

def empty : IndexedStore := ⟨.empty⟩

instance : Inhabited IndexedStore := ⟨empty⟩

def shelf (store : IndexedStore) (entity : String) : EntityRecords :=
  (store.entities.get? entity).getD .empty

def insert (store : IndexedStore) (record : Record) : IndexedStore × Option Record :=
  let shelf := store.shelf record.entity
  (⟨store.entities.set record.entity (shelf.insert record)⟩, shelf.records.get? record.id)

def remove (store : IndexedStore) (entity : String) (id : Uuid) : IndexedStore × Option Record :=
  match store.entities.get? entity with
  | none => (store, none)
  | some shelf =>
    match shelf.records.get? id with
    | none => (store, none)
    | some removed => (⟨store.entities.set entity (shelf.remove id)⟩, some removed)

def get? (store : IndexedStore) (entity : String) (id : Uuid) : Option Record :=
  (store.entities.get? entity).bind fun shelf => shelf.records.get? id

def records (store : IndexedStore) (entity : String) : List Record :=
  match store.entities.get? entity with
  | some shelf => shelf.listed
  | none => []

def count (store : IndexedStore) (entity : String) : Nat :=
  match store.entities.get? entity with
  | some shelf => shelf.records.size
  | none => 0

def size (store : IndexedStore) : Nat :=
  totalOf (store.entities.values.map fun shelf => shelf.records.size)

def isEmpty (store : IndexedStore) : Bool := store.size == 0

end IndexedStore

end RecordQuery
