import RecordQuery.Catalog.Resolve
import RecordQuery.Pattern
import RecordQuery.Value.Scalar

/-!
Predicates on rows, as queries are compiled to them: how a column is read, what its value is tested
for, and which rows are admitted. A test for a local day has no answer for an instant whose local
day is outside of the calendar; `faults` says whether the evaluation comes upon one.
-/

namespace RecordQuery

/-- How a column is read from a row: under its key, or as the name of the reference beside it. -/
structure Accessor where
  key : String
  type : AttributeType
  referenceKey? : Option String
  deriving DecidableEq, Repr

namespace Accessor

def qualifiedBy (scope? : Option String) (name : String) : String :=
  match scope? with
  | some aliasName => Record.qualify aliasName name
  | none => name

def ofColumn (scope? : Option String) (column : ResolvedColumn) : Accessor where
  key := qualifiedBy scope? column.name
  type := column.type
  referenceKey? :=
    match column.source with
    | .direct => none
    | .nameOf base => some (qualifiedBy scope? base)

def referenceName? : Value → Option Value
  | .reference target =>
    match target.name? with
    | some name => some (.text name)
    | none => some .null
  | .null => some .null
  | _ => none

def read? (accessor : Accessor) (record : Record) : Option Value :=
  match record.getUnwrapped? accessor.key with
  | some value => some value
  | none =>
    accessor.referenceKey?.bind fun key => (record.getUnwrapped? key).bind referenceName?

def readPresent? (accessor : Accessor) (record : Record) : Option Value :=
  (accessor.read? record).filter fun value => !value.isNull

end Accessor

inductive DayTest where
  | on
  | onOrAfter
  | onOrBefore
  deriving DecidableEq, Repr

def DayTest.holds (test : DayTest) (day date : Date) : Bool :=
  match test with
  | .on => day == date
  | .onOrAfter => decide (date ≤ day)
  | .onOrBefore => decide (day ≤ date)

inductive ValueTest where
  | anyOf (operands : List Scalar)
  | compare (comparison : Comparison) (operand : Scalar)
  | range (low high : Scalar)
  | day (test : DayTest) (date : Date) (offset : UtcOffset)
  | setEquals (codes : OptionSet)
  | setOverlaps (codes : OptionSet)
  | idIn (ids : List Uuid)

namespace ValueTest

def holds (test : ValueTest) (value : Scalar) : Bool :=
  match test with
  | .anyOf operands => operands.any value.equals
  | .compare comparison operand => ((value.order? operand).map comparison.holds).getD false
  | .range low high =>
    ((value.order? low).map Comparison.greaterEqual.holds).getD false &&
      ((value.order? high).map Comparison.lessEqual.holds).getD false
  | .day test date offset =>
    match value with
    | .dateTime t => ((t.localDate? offset).map (test.holds · date)).getD false
    | _ => false
  | .setEquals codes =>
    match value with
    | .options set => set == codes
    | _ => false
  | .setOverlaps codes =>
    match value with
    | .options set => set.overlaps codes
    | _ => false
  | .idIn ids =>
    match value with
    | .uuid id => ids.contains id
    | _ => false

def faults (test : ValueTest) (value : Scalar) : Bool :=
  match test, value with
  | .day _ _ offset, .dateTime t => (t.localDate? offset).isNone
  | _, _ => false

end ValueTest

inductive Predicate where
  | constant (holds : Bool)
  | not (inner : Predicate)
  | and (parts : List Predicate)
  | or (parts : List Predicate)
  | value (accessor : Accessor) (test : ValueTest) (negated : Bool) (sample? : Option Value)
  | isNull (accessor : Accessor) (negated : Bool)
  | like (accessor : Accessor) (pattern : Pattern) (negated : Bool)
  | columns (left right : Accessor) (comparison : Comparison)

namespace Predicate

def isTrue : Predicate → Bool
  | .constant true => true
  | _ => false

def conjunction (parts : List Predicate) : Predicate :=
  match parts.filter fun part => !part.isTrue with
  | [] => .constant true
  | [part] => part
  | rest => .and rest

def disjunction (parts : List Predicate) : Predicate :=
  match parts with
  | [] => .constant true
  | [part] => part
  | rest => .or rest

def negate : Predicate → Predicate
  | .constant holds => .constant !holds
  | .not inner => inner
  | other => .not other

def scalarOf (accessor : Accessor) (sample? : Option Value) (record : Record) : Option Scalar :=
  (accessor.readPresent? record).bind fun value => value.scalar? accessor.type sample?

def columnOrder? (left right : Accessor) (record : Record) : Option Ordering := do
  let a ← left.read? record
  let b ← right.read? record
  let x ← a.scalar? left.type none
  let y ← b.scalar? right.type none
  x.order? y

mutual

def admits : Predicate → Record → Bool
  | .constant holds, _ => holds
  | .not inner, record => !inner.admits record
  | .and parts, record => allAdmit parts record
  | .or parts, record => anyAdmits parts record
  | .value accessor test negated sample?, record =>
    ((scalarOf accessor sample? record).map fun scalar => test.holds scalar != negated).getD false
  | .isNull accessor negated, record =>
    ((accessor.read? record).map Value.isNull).getD true != negated
  | .like accessor pattern negated, record =>
    pattern.admits (((accessor.read? record).map Value.display).getD "") != negated
  | .columns left right comparison, record =>
    ((columnOrder? left right record).map comparison.holds).getD false

def allAdmit : List Predicate → Record → Bool
  | [], _ => true
  | part :: rest, record => part.admits record && allAdmit rest record

def anyAdmits : List Predicate → Record → Bool
  | [], _ => false
  | part :: rest, record => part.admits record || anyAdmits rest record

end

mutual

/-- The evaluation, from left to right and no further than needed, comes upon a local day outside
of the calendar. -/
def faults : Predicate → Record → Bool
  | .not inner, record => inner.faults record
  | .and parts, record => faultsInAll parts record
  | .or parts, record => faultsInAny parts record
  | .value accessor test _ sample?, record =>
    ((scalarOf accessor sample? record).map test.faults).getD false
  | _, _ => false

def faultsInAll : List Predicate → Record → Bool
  | [], _ => false
  | part :: rest, record => part.faults record || (part.admits record && faultsInAll rest record)

def faultsInAny : List Predicate → Record → Bool
  | [], _ => false
  | part :: rest, record => part.faults record || (!part.admits record && faultsInAny rest record)

end

def eval (predicate : Predicate) (record : Record) : Except Error Bool :=
  if predicate.faults record then .error .overflow else .ok (predicate.admits record)

end Predicate

end RecordQuery
