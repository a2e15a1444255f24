import RecordQuery.Catalog.AttributeType
import RecordQuery.Query.Operator
import RecordQuery.Value.Basic

namespace RecordQuery

inductive Fault where
  | rootElement (found : String)
  | noEntity
  | severalEntities
  | unknownElement (name : String)
  | misplacedElement (child parent : String)
  | missingAttribute (element column : String)
  | notAFlag (element column found : String)
  | notACount (element column found : String)
  | unknownAggregate (name : String)
  | unknownGrouping (name : String)
  | unknownFilterType (name : String)
  | unknownLinkType (name : String)
  | emptyAggregate
  | allColumnsInAggregate
  | aggregateWithoutAlias (column : String)
  | plainColumnInAggregate (column : String)
  | emptyName
  | nameStart (name : String)
  | nameCharacters (name : String)
  | repeatedAttribute (name : String)
  deriving DecidableEq, Repr

def Fault.message : Fault → String
  | .rootElement found => "The root element must be 'fetch', found '" ++ found ++ "'"
  | .noEntity => "The 'fetch' element must contain an 'entity' element"
  | .severalEntities => "The 'fetch' element must contain exactly one 'entity' element"
  | .unknownElement name => "The element '" ++ name ++ "' is not supported"
  | .misplacedElement child parent =>
    "The element '" ++ child ++ "' is not allowed inside '" ++ parent ++ "'"
  | .missingAttribute element column =>
    "The '" ++ element ++ "' element requires the '" ++ column ++ "' attribute"
  | .notAFlag element column found =>
    "The '" ++ column ++ "' attribute of '" ++ element ++ "' must be true or false, found '" ++
      found ++ "'"
  | .notACount element column found =>
    "The '" ++ column ++ "' attribute of '" ++ element ++
      "' must be a non-negative integer, found '" ++ found ++ "'"
  | .unknownAggregate name => "Unknown aggregate function '" ++ name ++ "'"
  | .unknownGrouping name => "Unknown date grouping '" ++ name ++ "'"
  | .unknownFilterType name => "Unknown filter type '" ++ name ++ "'"
  | .unknownLinkType name => "Unknown link-type '" ++ name ++ "'"
  | .emptyAggregate =>
    "An aggregate query must contain at least one aggregate or groupby attribute"
  | .allColumnsInAggregate => "all-attributes can not be used in an aggregate query"
  | .aggregateWithoutAlias column =>
    "Attribute '" ++ column ++ "' of an aggregate query requires an alias"
  | .plainColumnInAggregate column =>
    "Attribute '" ++ column ++ "' of an aggregate query must have an aggregate or be a groupby"
  | .emptyName => "Name cannot be empty"
  | .nameStart name => "Name must start with letter or underscore: " ++ name
  | .nameCharacters name => "Name contains invalid characters: " ++ name
  | .repeatedAttribute name => "Attribute already exists: " ++ name

inductive NameFault where
  | unknownEntity (entity : String)
  | unknownAttribute (entity column : String)
  | unknownAlias (aliasName : String)
  | invalidAlias (aliasName : String)
  | repeatedAlias (aliasName : String)
  deriving DecidableEq, Repr

def NameFault.message : NameFault → String
  | .unknownEntity entity =>
    "The entity with a name = '" ++ entity ++ "' was not found in the MetadataCache"
  | .unknownAttribute entity column =>
    "'" ++ entity ++ "' entity doesn't contain attribute with Name = '" ++ column ++ "'"
  | .unknownAlias aliasName =>
    "No link-entity with alias '" ++ aliasName ++ "' was found in the query"
  | .invalidAlias aliasName =>
    "Invalid alias '" ++ aliasName ++ "': aliases must start with a letter or underscore and " ++
      "contain only letters, digits or underscores"
  | .repeatedAlias aliasName =>
    "Table alias '" ++ aliasName ++ "' is not unique amongst all top-level table and join aliases"

inductive OperatorFault where
  | unknown (keyword : String)
  | optionsOnly (operator : Operator) (column : String)
  | datesOnly (operator : Operator) (column : String) (type : AttributeType)
  | notForAttribute (operator : Operator) (column : String)
  | notForColumns (operator : Operator) (column : String)
  | notForOptions (operator : Operator) (column : String)
  deriving DecidableEq, Repr

def OperatorFault.message : OperatorFault → String
  | .unknown keyword => "The operator '" ++ keyword ++ "' is not supported"
  | .optionsOnly operator column =>
    "The operator '" ++ operator.name ++
      "' is only supported for multi-select option set attributes, not '" ++ column ++ "'"
  | .datesOnly operator column type =>
    "The operator '" ++ operator.name ++ "' is not valid for attribute '" ++ column ++
      "' of type " ++ type.name
  | .notForAttribute operator column =>
    "The operator '" ++ operator.name ++ "' is not supported for attribute '" ++ column ++ "'"
  | .notForColumns operator column =>
    "The operator '" ++ operator.name ++ "' is not supported when comparing attribute '" ++
      column ++ "' to another column"
  | .notForOptions operator column =>
    "The operator '" ++ operator.name ++
      "' is not supported for multi-select option set attribute '" ++ column ++ "'"

inductive OperandFault where
  | countNeeded (operator : Operator) (column : String) (least : Nat)
  | fiscalNumberNeeded (operator : Operator) (column : String) (unit : FiscalUnit)
  | fiscalPeriodTooLarge (column : String)
  | fiscalYearTooLarge (column : String)
  | beyondCalendar (operator : Operator) (column : String)
  | noSuchPeriod (periods period : Nat)
  | fiscalYearBeyondCalendar (year : Int)
  | dateNeeded (operator : Operator) (column : String)
  | idNeeded (operator : Operator) (column : String)
  deriving DecidableEq, Repr

def OperandFault.condition (operator : Operator) (column : String) : String :=
  "Condition operator " ++ operator.name ++ " on attribute '" ++ column ++ "'"

def OperandFault.message : OperandFault → String
  | .countNeeded operator column least =>
    condition operator column ++ " requires an integer value of at least " ++
      Text.natText least
  | .fiscalNumberNeeded operator column unit =>
    condition operator column ++ " requires an integer fiscal " ++ unit.word
  | .fiscalPeriodTooLarge column => "Fiscal period out of range on '" ++ column ++ "'"
  | .fiscalYearTooLarge column => "Fiscal year out of range on '" ++ column ++ "'"
  | .beyondCalendar operator column =>
    condition operator column ++ " reaches past the supported date range"
  | .noSuchPeriod periods period =>
    "Fiscal period must be between 1 and " ++ Text.natText periods ++ ", got " ++
      Text.natText period
  | .fiscalYearBeyondCalendar year => "Fiscal year " ++ Text.intText year ++ " is out of range"
  | .dateNeeded operator column => condition operator column ++ " requires a date value"
  | .idNeeded operator column => condition operator column ++ " requires a record id"

inductive SettingFault where
  | fiscalMonth (found : Nat)
  | fiscalDay (found : Nat)
  | emptyPage
  | noHierarchy (entity : String)
  deriving DecidableEq, Repr

def SettingFault.message : SettingFault → String
  | .fiscalMonth found =>
    "Fiscal year start month must be between 1 and 12, got " ++ Text.natText found
  | .fiscalDay found =>
    "Fiscal year start day must be between 1 and 31, got " ++ Text.natText found
  | .emptyPage => "default_page_size must be at least 1"
  | .noHierarchy entity =>
    "Entity '" ++ entity ++ "' has no hierarchical relationship configured"

inductive Error where
  | malformed
  | invalid (fault : Fault)
  | name (fault : NameFault)
  | operator (fault : OperatorFault)
  | type (column : String) (code : TypeCode)
  | operandCount (operator : Operator) (count : Nat)
  | operand (fault : OperandFault)
  | setting (fault : SettingFault)
  | notAnOption (kind : Value.Kind)
  | overflow
  deriving DecidableEq, Repr

def Error.message : Error → String
  | .malformed => "Malformed query document"
  | .invalid fault => "Invalid query document: " ++ fault.message
  | .name fault => fault.message
  | .operator fault => fault.message
  | .type column code =>
    "Unsupported attribute type " ++ code.name ++ " for attribute " ++ column
  | .operandCount op count =>
    "Condition operator " ++ op.name ++ " requires " ++ op.arity.text ++
      " value(s), but " ++ Text.natText count ++ " were supplied"
  | .operand fault => "Invalid argument: " ++ fault.message
  | .setting fault => "Configuration error: " ++ fault.message
  | .notAnOption kind =>
    "Deserialization error: Expected an integer or an array of integers for option set values, " ++
      "found " ++ kind.name
  | .overflow => "A number or a date leaves its range"

end RecordQuery
