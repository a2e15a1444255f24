import RecordQuery.Predicate.Basic
import RecordQuery.Store

namespace RecordQuery

structure Relation where
  records : List Record
  aliases : List String

namespace Relation

def empty : Relation := ⟨[], []⟩

instance : Inhabited Relation := ⟨empty⟩

def ofRecords (records : List Record) : Relation := ⟨records, []⟩

def size (relation : Relation) : Nat := relation.records.length

def isEmpty (relation : Relation) : Bool := relation.records.isEmpty

def withRecords (relation : Relation) (records : List Record) : Relation :=
  { relation with records }

def identified (primaryId : String) (record : Record) : Record :=
  if record.attributes.contains primaryId then record else record.set primaryId (.uuid record.id)

def scan (store : Store) (entity primaryId : String) : Relation :=
  ofRecords ((store.records entity).map (identified primaryId))

def filter (relation : Relation) (predicate : Predicate) : Except Error Relation :=
  if relation.records.any predicate.faults then .error .overflow
  else .ok (relation.withRecords (relation.records.filter predicate.admits))

def slice (relation : Relation) (limit offset : Nat) : Relation :=
  let start := min offset relation.size
  let stop := min (saturatingAdd offset limit) relation.size
  relation.withRecords ((relation.records.take stop).drop start)

end Relation

end RecordQuery
