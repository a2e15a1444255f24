import RecordQuery.Query.Link
import RecordQuery.Relation.Basic

/-!
Joins of relations on equal keys. The rows of the right relation are put in a table by their keys,
and those of the left one look theirs up in it. A row without a key, because it lacks the column or
holds null or a list in it, is not in the table and finds nothing there.
-/

namespace RecordQuery

def Record.keyAt? (record : Record) (column : String) : Option Scalar :=
  (record.get? column).bind Value.key?

abbrev KeyTable : Type := List (Scalar × List Record)

namespace KeyTable

def empty : KeyTable := []

def add (key : Scalar) (row : Record) : KeyTable → KeyTable
  | [] => [(key, [row])]
  | (other, rows) :: rest =>
    if other.sameKey key then (other, rows ++ [row]) :: rest
    else (other, rows) :: add key row rest

def addRow (column : String) (table : KeyTable) (row : Record) : KeyTable :=
  match row.keyAt? column with
  | some key => table.add key row
  | none => table

def ofRecords (column : String) (records : List Record) : KeyTable :=
  records.foldl (addRow column) empty

def group? (key : Scalar) : KeyTable → Option (List Record)
  | [] => none
  | (other, rows) :: rest => if other.sameKey key then some rows else group? key rest

def linked? (table : KeyTable) (column : String) (row : Record) : Option (List Record) :=
  (row.keyAt? column).bind table.group?

end KeyTable

namespace Relation

def mergeLinked (table : KeyTable) (column aliasName : String) (outer : Bool) (row : Record) :
    List Record :=
  match table.linked? column row with
  | some found => found.map (row.merge aliasName)
  | none => if outer then [row] else []

def join (left right : Relation) (leftColumn rightColumn aliasName : String) (outer : Bool) :
    Relation :=
  let table := KeyTable.ofRecords rightColumn right.records
  ⟨left.records.flatMap (mergeLinked table leftColumn aliasName outer),
    left.aliases ++ [aliasName]⟩

def keeps (kind : JoinKind) (predicate : Predicate) (linked : List Record) : Bool :=
  match kind with
  | .any => linked.any predicate.admits
  | .notAny => !linked.any predicate.admits
  | .all => linked.all predicate.admits
  | .notAll => linked.any fun record => !predicate.admits record
  | .inner | .leftOuter => !linked.isEmpty

/-- A row faults before one is found that the predicate admits, or does not admit, as `sought`
says. -/
def faultsBefore (predicate : Predicate) (sought : Bool) : List Record → Bool
  | [] => false
  | record :: rest =>
    predicate.faults record ||
      (predicate.admits record != sought && faultsBefore predicate sought rest)

def keepFaults (kind : JoinKind) (predicate : Predicate) (linked : List Record) : Bool :=
  match kind with
  | .any | .notAny => faultsBefore predicate true linked
  | .all | .notAll => faultsBefore predicate false linked
  | .inner | .leftOuter => false

def existsJoin (left right : Relation) (kind : JoinKind) (leftColumn rightColumn : String)
    (predicate : Predicate) : Except Error Relation :=
  let table := KeyTable.ofRecords rightColumn right.records
  let linkedTo := fun row => (table.linked? leftColumn row).getD []
  if left.records.any fun row => keepFaults kind predicate (linkedTo row) then
    .error .overflow
  else
    .ok (left.withRecords (left.records.filter fun row => keeps kind predicate (linkedTo row)))

end Relation

end RecordQuery
