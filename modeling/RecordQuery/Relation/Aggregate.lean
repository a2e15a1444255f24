import RecordQuery.Decimal.Arithmetic
import RecordQuery.Query.Column
import RecordQuery.Relation.Distinct

namespace RecordQuery

inductive AggregateRole where
  | groupBy (grouping? : Option DateGrouping)
  | apply (function : AggregateFunction) (distinct : Bool)
  deriving DecidableEq, Repr

structure AggregateColumn where
  output : String
  source : String
  column : String
  accessor : Accessor
  role : AggregateRole
  deriving DecidableEq, Repr

def Date.isoWeek (date : Date) : Int :=
  let thursday := date.number - (date.number - 1) % 7 + 3
  (thursday - Date.daysBeforeYear (Date.yearOfNumber thursday) - 1) / 7 + 1

def DateGrouping.component (grouping : DateGrouping) (date : Date) : Int :=
  match grouping with
  | .day => date.day
  | .week => date.isoWeek
  | .month => date.month
  | .quarter => ((date.month - 1) / 3 + 1 : Nat)
  | .year => date.year

namespace AggregateColumn

def groupValue (column : AggregateColumn) (offset : UtcOffset)
    (grouping? : Option DateGrouping) (record : Record) : Except Error Value :=
  match column.accessor.read? record, grouping? with
  | none, _ => .ok .null
  | some value, none => .ok value
  | some (.dateTime t), some grouping =>
    match t.localDate? offset with
    | some date => .ok (.int (Int64.ofInt (grouping.component date)))
    | none => .error .overflow
  | some _, some _ => .ok .null

def presentValues (column : AggregateColumn) (group : List Record) : List Value :=
  group.filterMap column.accessor.readPresent?

def number? (type : AttributeType) (value : Value) : Option Decimal :=
  match value.scalar? type none with
  | some (.int n) => if n = Value.noNumber then none else some (Decimal.ofInt64 n)
  | some (.decimal d) => some d
  | _ => none

def total (numbers : List Decimal) : Except Error Decimal :=
  match numbers.foldlM Decimal.add? Decimal.zero with
  | some sum => .ok sum
  | none => .error .overflow

def sumValue (type : AttributeType) (sum : Decimal) : Value :=
  match type with
  | .int =>
    match sum.toInt64? with
    | some n => .int n
    | none => .decimal sum
  | .money => .money sum
  | _ => .decimal sum

def meanValue (type : AttributeType) (mean : Decimal) : Value :=
  match type with
  | .money => .money mean
  | _ => .decimal mean

def better (type : AttributeType) (wanted : Ordering) (best? : Option (Scalar × Value))
    (value : Value) : Option (Scalar × Value) :=
  match value.scalar? type none, best? with
  | none, _ => best?
  | some scalar, none => some (scalar, value)
  | some scalar, some best =>
    if scalar.order? best.1 = some wanted then some (scalar, value) else some best

def extreme (type : AttributeType) (wanted : Ordering) (values : List Value) : Value :=
  ((values.foldl (better type wanted) none).map (·.2)).getD .null

def apply (column : AggregateColumn) (function : AggregateFunction) (distinct : Bool)
    (group : List Record) : Except Error Value := do
  let type := column.accessor.type
  let values := column.presentValues group
  let numbers := values.filterMap (number? type)
  match function with
  | .count => return .int (Int64.ofNat group.length)
  | .countColumn =>
    if distinct then
      let keys := Relation.firsts Scalar.sameKey (values.filterMap Value.key?)
      return .int (Int64.ofNat keys.length)
    else
      return .int (Int64.ofNat values.length)
  | .sum =>
    if numbers.isEmpty then return .null
    else return sumValue type (← total numbers)
  | .avg =>
    if numbers.isEmpty then return .null
    else
      match (← total numbers).mean? numbers.length with
      | some mean => return meanValue type mean
      | none => throw .overflow
  | .min => return extreme type .lt values
  | .max => return extreme type .gt values

def value (column : AggregateColumn) (offset : UtcOffset) (group : List Record) :
    Except Error Value :=
  match column.role with
  | .groupBy grouping? =>
    match group.head? with
    | some record => column.groupValue offset grouping? record
    | none => .ok .null
  | .apply function distinct => column.apply function distinct group

end AggregateColumn

namespace Relation

def groupKey (offset : UtcOffset) (columns : List AggregateColumn) (record : Record) :
    Except Error (List (Option Scalar)) :=
  columns.filterMapM fun column =>
    match column.role with
    | .groupBy grouping? => do
      return some (← column.groupValue offset grouping? record).key?
    | .apply _ _ => return none

def sameGroup : List (Option Scalar) → List (Option Scalar) → Bool
  | [], [] => true
  | none :: as, none :: bs => sameGroup as bs
  | some a :: as, some b :: bs => a.sameKey b && sameGroup as bs
  | _, _ => false

def place (key : List (Option Scalar)) (record : Record) :
    List (List (Option Scalar) × List Record) → List (List (Option Scalar) × List Record)
  | [] => [(key, [record])]
  | (other, group) :: rest =>
    if sameGroup other key then (other, group ++ [record]) :: rest
    else (other, group) :: place key record rest

def groups (keyed : List (List (Option Scalar) × Record)) : List (List Record) :=
  (keyed.foldl (fun grouped row => place row.1 row.2 grouped) []).map (·.2)

def groupRow (entity : String) (offset : UtcOffset) (columns : List AggregateColumn)
    (group : List Record) : Except Error Record :=
  columns.foldlM (fun row column => do
    let value ← column.value offset group
    return row.set column.output (.aliased column.source column.column value))
    ⟨entity, .nil, .empty⟩

def isGrouping (column : AggregateColumn) : Bool :=
  match column.role with
  | .groupBy _ => true
  | .apply _ _ => false

def aggregate (relation : Relation) (entity : String) (offset : UtcOffset)
    (columns : List AggregateColumn) : Except Error Relation := do
  if columns.any isGrouping then
    let keyed ← relation.records.mapM fun record => do
      return (← groupKey offset columns record, record)
    return relation.withRecords (← (groups keyed).mapM (groupRow entity offset columns))
  else
    return relation.withRecords [← groupRow entity offset columns relation.records]

end Relation

end RecordQuery
