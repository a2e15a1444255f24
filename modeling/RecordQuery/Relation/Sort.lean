import RecordQuery.Relation.Basic

namespace RecordQuery

structure SortKey where
  accessor : Accessor
  descending : Bool
  deriving DecidableEq, Repr

namespace SortKey

def referenceOrder (a b : Reference) : Ordering :=
  (compare (Text.lowercase (a.name?.getD "")) (Text.lowercase (b.name?.getD ""))).then
    (compare a.id b.id)

def valueOrder (type : AttributeType) (a b : Value) : Ordering :=
  match a, b with
  | .reference x, .reference y => referenceOrder x y
  | _, _ =>
    match a.scalar? type none, b.scalar? type none with
    | some x, some y => (x.order? y).getD .eq
    | _, _ => .eq

def ascendingOrder (accessor : Accessor) (a b : Record) : Ordering :=
  match accessor.readPresent? a, accessor.readPresent? b with
  | some x, some y => valueOrder accessor.type x y
  | none, some _ => .lt
  | some _, none => .gt
  | none, none => .eq

def order (key : SortKey) (a b : Record) : Ordering :=
  let ascending := ascendingOrder key.accessor a b
  if key.descending then ascending.swap else ascending

def orderBy : List SortKey → Record → Record → Ordering
  | [], _, _ => .eq
  | key :: keys, a, b => (key.order a b).then (orderBy keys a b)

end SortKey

namespace Relation

def insertLast (keys : List SortKey) (record : Record) : List Record → List Record
  | [] => [record]
  | last :: rest =>
    if SortKey.orderBy keys record last = .lt then last :: insertLast keys record rest
    else record :: last :: rest

/-- Sorts the rows; rows that the keys do not tell apart keep their order. This stands for the
stable sort of a library only where the keys order the rows: elsewhere, as with values that cannot
be compared, such a sort may leave any order, or panic. -/
def sort (relation : Relation) (keys : List SortKey) : Relation :=
  relation.withRecords
    (relation.records.foldl (fun sorted record => insertLast keys record sorted) []).reverse

end Relation

end RecordQuery
