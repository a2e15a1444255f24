import RecordQuery.Calendar.Instant
import RecordQuery.Decimal.Basic
import RecordQuery.Uuid
import RecordQuery.Value.OptionSet

namespace RecordQuery

structure Reference where
  entity : String
  id : Uuid
  name? : Option String
  deriving DecidableEq

inductive Value where
  | null
  | text (content : String)
  | int (n : Int64)
  | decimal (d : Decimal)
  | bool (b : Bool)
  | dateTime (t : Instant)
  | uuid (id : Uuid)
  | reference (target : Reference)
  | money (amount : Decimal)
  | option (code : Int32)
  | options (codes : OptionSet)
  | aliased (aliasName column : String) (value : Value)
  | list (items : List Value)

namespace Value

instance : Inhabited Value := ⟨null⟩

inductive Kind where
  | null
  | text
  | int
  | decimal
  | bool
  | dateTime
  | uuid
  | reference
  | money
  | option
  | options
  | aliased
  | list
  deriving DecidableEq, Repr

def Kind.name : Kind → String
  | .null => "Null"
  | .text => "String"
  | .int => "Int"
  | .decimal => "Decimal"
  | .bool => "Bool"
  | .dateTime => "DateTime"
  | .uuid => "Guid"
  | .reference => "EntityReference"
  | .money => "Money"
  | .option => "OptionSetValue"
  | .options => "OptionSetValueCollection"
  | .aliased => "AliasedValue"
  | .list => "Array"

def kind : Value → Kind
  | .null => .null
  | .text _ => .text
  | .int _ => .int
  | .decimal _ => .decimal
  | .bool _ => .bool
  | .dateTime _ => .dateTime
  | .uuid _ => .uuid
  | .reference _ => .reference
  | .money _ => .money
  | .option _ => .option
  | .options _ => .options
  | .aliased _ _ _ => .aliased
  | .list _ => .list

def isNull : Value → Bool
  | .null => true
  | _ => false

def unwrap : Value → Value
  | .aliased _ _ value => value.unwrap
  | value => value

def text? : Value → Option String
  | .text content => some content
  | _ => none

def int? : Value → Option Int64
  | .int n => some n
  | _ => none

def bool? : Value → Option Bool
  | .bool b => some b
  | _ => none

def dateTime? : Value → Option Instant
  | .dateTime t => some t
  | _ => none

def uuid? : Value → Option Uuid
  | .uuid id => some id
  | .reference target => some target.id
  | _ => none

def reference? : Value → Option Reference
  | .reference target => some target
  | _ => none

mutual

def same : Value → Value → Bool
  | .null, .null => true
  | .text a, .text b => a == b
  | .int a, .int b => a == b
  | .decimal a, .decimal b => a.same b
  | .bool a, .bool b => a == b
  | .dateTime a, .dateTime b => a == b
  | .uuid a, .uuid b => a == b
  | .reference a, .reference b => a == b
  | .money a, .money b => a.same b
  | .option a, .option b => a == b
  | .options a, .options b => a == b
  | .aliased alias₁ column₁ a, .aliased alias₂ column₂ b =>
    alias₁ == alias₂ && column₁ == column₂ && a.same b
  | .list a, .list b => sameAll a b
  | _, _ => false

def sameAll : List Value → List Value → Bool
  | [], [] => true
  | a :: as, b :: bs => a.same b && sameAll as bs
  | _, _ => false

end

mutual

def flatten : Value → List Value
  | .list items => flattenAll items
  | value => [value]

def flattenAll : List Value → List Value
  | [] => []
  | value :: rest => value.flatten ++ flattenAll rest

end

mutual

def display : Value → String
  | .null => ""
  | .text content => content
  | .int n => Text.intText n.toInt
  | .decimal d => d.text
  | .bool b => if b then "true" else "false"
  | .dateTime t => t.text
  | .uuid id => id.text
  | .reference target => target.name?.getD ""
  | .money amount => amount.text
  | .option code => Text.intText code.toInt
  | .options set => ",".intercalate (set.codes.map fun code => Text.intText code.toInt)
  | .aliased _ _ value => value.display
  | .list items => ",".intercalate (displayAll items)

def displayAll : List Value → List String
  | [] => []
  | value :: rest => value.display :: displayAll rest

end

end Value

end RecordQuery
