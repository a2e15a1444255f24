import RecordQuery.Context
import RecordQuery.Hierarchy
import RecordQuery.Predicate.Basic
import RecordQuery.Value.Options

namespace RecordQuery

abbrev AliasMap := List (String × String)

def AliasMap.entity (aliases : AliasMap) (aliasName : String) : Except Error String :=
  match List.lookup aliasName aliases with
  | some entity => .ok entity
  | none => .error (.name (.unknownAlias aliasName))

structure Scope where
  entity : String
  alias? : Option String
  deriving DecidableEq, Repr

namespace Scope

def root (entity : String) : Scope := ⟨entity, none⟩

def link (entity aliasName : String) : Scope := ⟨entity, some aliasName⟩

def aliased (scope : Scope) (aliases : AliasMap) (alias? : Option String) : Except Error Scope :=
  match alias? with
  | some aliasName => (aliases.entity aliasName).map fun entity => link entity aliasName
  | none => .ok scope

def accessor (scope : Scope) (catalog : Catalog) (column : String) : Except Error Accessor :=
  (catalog.resolve scope.entity column).map (Accessor.ofColumn scope.alias?)

end Scope

namespace Condition

def otherColumn (aliases : AliasMap) (scope : Scope) (other : String) :
    Except Error (Scope × String) :=
  let chars := other.toList
  match chars.dropWhile (· != '.') with
  | [] => .ok (scope, other)
  | _ :: column =>
    let aliasName := String.ofList (chars.takeWhile (· != '.'))
    (aliases.entity aliasName).map fun entity => (.link entity aliasName, String.ofList column)

def compileColumns (condition : Condition) (catalog : Catalog) (aliases : AliasMap) (scope : Scope)
    (left : Accessor) (other : String) : Except Error Predicate := do
  match condition.operator with
  | .compare comparison =>
    let (otherScope, column) ← otherColumn aliases scope other
    let right ← otherScope.accessor catalog column
    return .columns left right comparison
  | operator => throw (.operator (.notForColumns operator condition.column))

def compileOptions (condition : Condition) (accessor : Accessor) : Except Error Predicate := do
  let equalTo (negated : Bool) : Except Error Predicate := do
    let codes ← Value.operandOptionSet condition.values
    if codes.isEmpty then return .constant false
    else return .value accessor (.setEquals codes) negated none
  match condition.operator with
  | .null negated => return .isNull accessor negated
  | .compare .equal => equalTo false
  | .compare .notEqual => equalTo true
  | .oneOf negated => equalTo negated
  | .containValues negated =>
    let codes ← Value.operandOptionSet condition.values
    return .value accessor (.setOverlaps codes) negated none
  | operator => throw (.operator (.notForOptions operator condition.column))

def operandId? (operand : Value) : Option Uuid :=
  match operand.unwrap with
  | .uuid id => some id
  | .reference target => some target.id
  | .text content => Uuid.read? (Text.trimChars content.toList)
  | _ => none

def kinOf (hierarchy : Hierarchy) (kinship : Kinship) (id : Uuid) : List Uuid :=
  if hierarchy.contains id then
    match kinship with
    | .above => hierarchy.ancestors id
    | .aboveOrEqual => id :: hierarchy.ancestors id
    | .under | .notUnder => hierarchy.descendants id
    | .underOrEqual => id :: hierarchy.descendants id
  else
    []

def compileKinship (condition : Condition) (context : Context) (entity : String)
    (accessor : Accessor) (kinship : Kinship) (values : List Value) : Except Error Predicate :=
  match context.catalog.parentColumn? entity with
  | none => .error (.setting (.noHierarchy entity))
  | some parentColumn =>
    match values.head?.bind operandId? with
    | none => .error (.operand (.idNeeded condition.operator condition.column))
    | some id =>
      let ids := kinOf ⟨context.store, entity, parentColumn⟩ kinship id
      .ok (.value accessor (.idIn ids) (kinship == .notUnder) none)

def textPattern (form : TextForm) (text : String) : Pattern :=
  .ofString (match form with
    | .like => text
    | .beginsWith => text ++ "%"
    | .endsWith => "%" ++ text
    | .contains => "%" ++ text ++ "%")

def compileAnyOf (accessor : Accessor) (values : List Value) (negated : Bool) : Predicate :=
  match values.filterMap fun value => value.scalar? accessor.type (some value) with
  | [] => .constant false
  | operands => .value accessor (.anyOf operands) negated values.head?

def compileComparison (accessor : Accessor) (comparison : Comparison) (operand : Value) :
    Predicate :=
  match operand.scalar? accessor.type (some operand) with
  | some scalar => .value accessor (.compare comparison scalar) false (some operand)
  | none => .constant false

/-- The upper end of a written range: a midnight stands for the whole day that it begins. -/
def wholeDay (high : Scalar) : Except Error Scalar :=
  match high with
  | .dateTime t =>
    if t.isMidnight then
      match (t.addSeconds? 86400).bind Instant.subMillisecond? with
      | some last => .ok (.dateTime last)
      | none => .error .overflow
    else
      .ok high
  | _ => .ok high

def compileRange (accessor : Accessor) (negated widened : Bool) (low high : Value) :
    Except Error Predicate := do
  let lower? := low.scalar? accessor.type (some low)
  let upper? ← match high.scalar? accessor.type (some high) with
    | some upper => if widened then some <$> wholeDay upper else pure (some upper)
    | none => pure none
  match lower?, upper? with
  | some lower, some upper => return .value accessor (.range lower upper) negated (some low)
  | _, _ => return .constant false

def compileDay (condition : Condition) (offset : UtcOffset) (accessor : Accessor) (test : DayTest)
    (negated : Bool) (operand : Value) : Except Error Predicate :=
  match operand.scalar? .dateTime none with
  | some (.dateTime t) => .ok (.value accessor (.day test t.date offset) negated none)
  | _ => .error (.operand (.dateNeeded condition.operator condition.column))

def compileOperator (condition : Condition) (context : Context) (accessor : Accessor)
    (values : List Value) (isWindow : Bool) : Except Error Predicate :=
  let first := values.headD .null
  let second := (values[1]?).getD .null
  let offset := context.catalog.offset
  match condition.operator with
  | .compare .equal => .ok (compileAnyOf accessor values false)
  | .compare .notEqual => .ok (compileAnyOf accessor values true)
  | .oneOf negated => .ok (compileAnyOf accessor values negated)
  | .compare comparison => .ok (compileComparison accessor comparison first)
  | .text form negated => .ok (.like accessor (textPattern form first.display) negated)
  | .null negated => .ok (.isNull accessor negated)
  | .between negated => compileRange accessor negated (!isWindow) first second
  | .on negated => condition.compileDay offset accessor .on negated first
  | .onOrAfter => condition.compileDay offset accessor .onOrAfter false first
  | .onOrBefore => condition.compileDay offset accessor .onOrBefore false first
  | .caller id negated =>
    .ok (.value accessor (.anyOf [.uuid (context.callerId id)]) negated none)
  | operator => .error (.operator (.notForAttribute operator condition.column))

def compileOperands (condition : Condition) (context : Context) (scope : Scope)
    (accessor : Accessor) : Except Error Predicate := do
  let operator := condition.operator
  let values := Value.flattenAll condition.values
  if !operator.arity.accepts values.length then
    throw (.operandCount operator values.length)
  if accessor.type = .options then
    condition.compileOptions accessor
  else
    if let .containValues _ := operator then
      throw (.operator (.optionsOnly operator condition.column))
    if operator.isDate && !accessor.type.isTemporal then
      throw (.operator (.datesOnly operator condition.column accessor.type))
    if let .kin kinship := operator then
      condition.compileKinship context scope.entity accessor kinship values
    else
      match ← condition.window? values context.present with
      | some derived =>
        derived.compileOperator context accessor (Value.flattenAll derived.values) true
      | none => condition.compileOperator context accessor values false

def compile (condition : Condition) (context : Context) (aliases : AliasMap) (scope : Scope) :
    Except Error Predicate := do
  if condition.outer then
    return .constant true
  let target ← scope.aliased aliases condition.alias?
  let accessor ← target.accessor context.catalog condition.column
  match condition.other? with
  | some other => condition.compileColumns context.catalog aliases target accessor other
  | none => condition.compileOperands context target accessor

end Condition

namespace Filter

def combine : Connective → List Predicate → Predicate
  | .and, parts => Predicate.conjunction parts
  | .or, parts => Predicate.disjunction parts

mutual

def compile (context : Context) (aliases : AliasMap) (scope : Scope) :
    Filter → Except Error Predicate
  | ⟨connective, conditions, filters⟩ => do
    let own ← conditions.mapM fun condition => condition.compile context aliases scope
    let inner ← compileAll context aliases scope filters
    return combine connective (own ++ inner)

def compileAll (context : Context) (aliases : AliasMap) (scope : Scope) :
    List Filter → Except Error (List Predicate)
  | [] => return []
  | filter :: rest => do
    let first ← compile context aliases scope filter
    return first :: (← compileAll context aliases scope rest)

end

end Filter

end RecordQuery
