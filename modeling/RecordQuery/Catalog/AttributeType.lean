namespace RecordQuery

inductive AttributeType where
  | text
  | int
  | decimal
  | bool
  | dateTime
  | uuid
  | reference
  | money
  | option
  | options
  deriving DecidableEq, Repr

namespace AttributeType

def all : List AttributeType :=
  [.text, .int, .decimal, .bool, .dateTime, .uuid, .reference, .money, .option, .options]

def name : AttributeType → String
  | .text => "String"
  | .int => "Int"
  | .decimal => "Decimal"
  | .bool => "Bool"
  | .dateTime => "DateTime"
  | .uuid => "Guid"
  | .reference => "Reference"
  | .money => "Money"
  | .option => "OptionSet"
  | .options => "MultiSelectOptionSet"

def ofName? (name : String) : Option AttributeType :=
  all.find? (·.name == name)

def isTemporal : AttributeType → Bool
  | .dateTime => true
  | _ => false

def isNumeric : AttributeType → Bool
  | .int | .decimal | .money | .option => true
  | _ => false

end AttributeType

inductive TypeCode where
  | boolean
  | customer
  | dateTime
  | decimal
  | double
  | integer
  | bigInt
  | lookup
  | memo
  | money
  | owner
  | partyList
  | picklist
  | state
  | status
  | string
  | uniqueIdentifier
  | calendarRules
  | virtual
  | managedProperty
  | entityName
  | multiSelectPicklist
  deriving DecidableEq, Repr

namespace TypeCode

def all : List TypeCode :=
  [.boolean, .customer, .dateTime, .decimal, .double, .integer, .bigInt, .lookup, .memo, .money,
    .owner, .partyList, .picklist, .state, .status, .string, .uniqueIdentifier, .calendarRules,
    .virtual, .managedProperty, .entityName, .multiSelectPicklist]

def name : TypeCode → String
  | .boolean => "Boolean"
  | .customer => "Customer"
  | .dateTime => "DateTime"
  | .decimal => "Decimal"
  | .double => "Double"
  | .integer => "Integer"
  | .bigInt => "BigInt"
  | .lookup => "Lookup"
  | .memo => "Memo"
  | .money => "Money"
  | .owner => "Owner"
  | .partyList => "PartyList"
  | .picklist => "Picklist"
  | .state => "State"
  | .status => "Status"
  | .string => "String"
  | .uniqueIdentifier => "Uniqueidentifier"
  | .calendarRules => "CalendarRules"
  | .virtual => "Virtual"
  | .managedProperty => "ManagedProperty"
  | .entityName => "EntityName"
  | .multiSelectPicklist => "MultiSelectPicklist"

def ofName? (name : String) : Option TypeCode :=
  all.find? (·.name == name)

def attributeType? : TypeCode → Option AttributeType
  | .boolean => some .bool
  | .customer | .lookup | .owner => some .reference
  | .dateTime => some .dateTime
  | .decimal | .double => some .decimal
  | .integer | .bigInt => some .int
  | .memo | .string | .entityName => some .text
  | .money => some .money
  | .picklist | .state | .status => some .option
  | .uniqueIdentifier => some .uuid
  | .multiSelectPicklist => some .options
  | .partyList | .calendarRules | .virtual | .managedProperty => none

end TypeCode

inductive DeclaredType where
  | text
  | int32
  | int64
  | decimal
  | float64
  | bool
  | dateTime
  | uuid
  | reference
  | money
  | option
  | options
  | enumeration (name : String)
  deriving DecidableEq, Repr

namespace DeclaredType

def plain : List DeclaredType :=
  [text, int32, int64, decimal, float64, bool, dateTime, uuid, reference, money, option, options]

def name : DeclaredType → String
  | .text => "Text"
  | .int32 => "Int32"
  | .int64 => "Int64"
  | .decimal => "Decimal"
  | .float64 => "Float64"
  | .bool => "Bool"
  | .dateTime => "DateTime"
  | .uuid => "Guid"
  | .reference => "EntityReference"
  | .money => "Money"
  | .option => "OptionSetValue"
  | .options => "OptionSetValueCollection"
  | .enumeration members => "Enum:" ++ members

def ofName? (name : String) : Option DeclaredType :=
  match "Enum:".toList.isPrefixOf? name.toList with
  | some members => some (.enumeration (String.ofList members))
  | none => plain.find? (·.name == name)

def attributeType : DeclaredType → AttributeType
  | .text => .text
  | .int32 | .int64 | .enumeration _ => .int
  | .decimal | .float64 => .decimal
  | .bool => .bool
  | .dateTime => .dateTime
  | .uuid => .uuid
  | .reference => .reference
  | .money => .money
  | .option => .option
  | .options => .options

end DeclaredType

end RecordQuery
