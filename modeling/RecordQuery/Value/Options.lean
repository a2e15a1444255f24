import RecordQuery.Error
import RecordQuery.Text.Blank

namespace RecordQuery.Value

def optionCode? (value : Value) : Option Int32 :=
  match value.unwrap with
  | .int n => if FitsInt32 n.toInt then some n.toInt32 else none
  | .option code => some code
  | .text content => Text.readInt32? (Text.trimChars content.toList)
  | _ => none

def optionCode (value : Value) : Except Error Int32 :=
  match value.optionCode? with
  | some code => .ok code
  | none => .error (.notAnOption value.kind)

def optionCodes (items : List Value) : Except Error OptionSet :=
  (items.mapM optionCode).map OptionSet.ofList

def listedCodes : List Value → Except Error OptionSet
  | [.list inner] => listedCodes inner
  | items => optionCodes items

def optionSet (value : Value) : Except Error OptionSet :=
  match value.unwrap with
  | .list items => listedCodes items
  | .options codes => .ok codes
  | other => (optionCode other).map OptionSet.singleton

def operandOptionSet : List Value → Except Error OptionSet
  | [value] => value.optionSet
  | values => listedCodes values

end RecordQuery.Value
