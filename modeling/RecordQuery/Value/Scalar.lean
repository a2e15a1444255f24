import RecordQuery.Calendar.Reader
import RecordQuery.Catalog.AttributeType
import RecordQuery.Decimal.Reader
import RecordQuery.Text.Lowercase
import RecordQuery.Value.Basic

namespace RecordQuery

inductive Scalar where
  | text (content : String)
  | int (n : Int64)
  | decimal (d : Decimal)
  | bool (b : Bool)
  | dateTime (t : Instant)
  | uuid (id : Uuid)
  | options (codes : OptionSet)

namespace Scalar

/-- The order of two scalars, for scalars that can be compared: of one kind, or both numbers. Sets
of options are only ever equal. -/
def order? : Scalar → Scalar → Option Ordering
  | .text a, .text b => some (compare a b)
  | .int a, .int b => some (compare a.toInt b.toInt)
  | .decimal a, .decimal b => some (compare a b)
  | .int a, .decimal b => some (compare (Decimal.ofInt64 a) b)
  | .decimal a, .int b => some (compare a (Decimal.ofInt64 b))
  | .bool a, .bool b => some (compare a b)
  | .dateTime a, .dateTime b => some (compare a b)
  | .uuid a, .uuid b => some (compare a b)
  | .options a, .options b => if a = b then some .eq else none
  | _, _ => none

def equals (a b : Scalar) : Bool :=
  a.order? b == some .eq

/-- Equality as keys: of one kind and equal, decimals by value. A whole number and a decimal are
different keys. -/
def sameKey : Scalar → Scalar → Bool
  | .text a, .text b => a == b
  | .int a, .int b => a == b
  | .decimal a, .decimal b => a.same b
  | .bool a, .bool b => a == b
  | .dateTime a, .dateTime b => a == b
  | .uuid a, .uuid b => a == b
  | .options a, .options b => a == b
  | _, _ => false

end Scalar

namespace Value

/-- The number that stands for a value which is no whole number. -/
def noNumber : Int64 := Int64.minValue

def wholeNumber (value : Value) : Int64 :=
  match value.unwrap with
  | .int n => n
  | .option code => code.toInt64
  | .bool b => if b then 1 else 0
  | .text content => (Text.readInt64? (Text.trimChars content.toList)).getD noNumber
  | .decimal d => d.toInt64?.getD noNumber
  | .money amount => amount.toInt64?.getD noNumber
  | _ => noNumber

def readBool? (text : List Char) : Option Bool :=
  let lowered := String.ofList (text.map Text.lowerASCII)
  if lowered = "1" ∨ lowered = "true" then some true
  else if lowered = "0" ∨ lowered = "false" then some false
  else none

/-- The scalar that a text stands for under the type of its attribute. What cannot be read is
compared as text, without regard to case. -/
def scalarOfText (content : String) (type : AttributeType) : Scalar :=
  let trimmed := Text.trimChars content.toList
  let read? : Option Scalar :=
    match type with
    | .dateTime => (Calendar.readChars? trimmed).map .dateTime
    | .int | .option => (Text.readInt64? trimmed).map .int
    | .decimal | .money => (Decimal.read? trimmed).map .decimal
    | .uuid | .reference => (Uuid.read? trimmed).map .uuid
    | .bool => (readBool? trimmed).map .bool
    | .text | .options => none
  read?.getD (.text (Text.lowercase content))

def scalarOfInt (n : Int64) : AttributeType → Scalar
  | .decimal | .money => .decimal (Decimal.ofInt64 n)
  | _ => .int n

/-- Whether references are to be compared by the names that they carry: beside a text that is no
identifier. -/
def namesReference (sample? : Option Value) : Bool :=
  match sample?.map unwrap with
  | some (.text content) => (Uuid.read? (Text.trimChars content.toList)).isNone
  | _ => false

def scalar? (value : Value) (type : AttributeType) (sample? : Option Value) : Option Scalar :=
  match value.unwrap with
  | .null => none
  | .text content => some (scalarOfText content type)
  | .int n => some (scalarOfInt n type)
  | .option code => some (scalarOfInt code.toInt64 type)
  | .decimal d =>
    match type with
    | .int | .option => some (.int value.wholeNumber)
    | _ => some (.decimal d)
  | .money amount =>
    match type with
    | .int | .option => some (.int value.wholeNumber)
    | _ => some (.decimal amount)
  | .bool b =>
    match type with
    | .int | .option => some (.int value.wholeNumber)
    | _ => some (.bool b)
  | .dateTime t => some (.dateTime t)
  | .uuid id => some (.uuid id)
  | .reference target =>
    if namesReference sample? then some (.text (Text.lowercase (target.name?.getD "")))
    else some (.uuid target.id)
  | .options codes => some (.options codes)
  | .aliased _ _ _ => none
  | .list _ => none

def key? (value : Value) : Option Scalar :=
  match value.unwrap with
  | .null => none
  | .text content =>
    match Uuid.read? (Text.trimChars content.toList) with
    | some id => some (.uuid id)
    | none => some (.text (Text.lowercase content))
  | .int n => some (.int n)
  | .option code => some (.int code.toInt64)
  | .decimal d => some (.decimal d.normalize)
  | .money amount => some (.decimal amount.normalize)
  | .bool b => some (.bool b)
  | .dateTime t => some (.dateTime t)
  | .uuid id => some (.uuid id)
  | .reference target => some (.uuid target.id)
  | .options codes => some (.options codes)
  | .aliased _ _ _ => none
  | .list _ => none

end Value

end RecordQuery
