import RecordQuery.Magnitude

namespace RecordQuery

inductive Encoded where
  | null
  | flag (holds : Bool)
  | number (digits : Int) (places : Nat)
  | text (content : String)
  | list (items : List Encoded)
  | fields (entries : List (String × Encoded))

namespace Encoded

instance : Inhabited Encoded := ⟨null⟩

def ofNat (n : Nat) : Encoded := number n 0

def ofOption : Option Encoded → Encoded
  | some data => data
  | none => null

def text? : Encoded → Option String
  | .text content => some content
  | _ => none

def nat? (limit : Nat) : Encoded → Option Nat
  | .number (.ofNat n) 0 => if n < limit then some n else none
  | _ => none

def list? {α : Type} (decode? : Encoded → Option α) : Encoded → Option (List α)
  | .list items => items.mapM decode?
  | _ => none

def entries? {α : Type} (decode? : Encoded → Option α) : Encoded → Option (List (String × α))
  | .fields entries => entries.mapM fun (name, data) => (decode? data).map fun a => (name, a)
  | _ => none

def choice? {α : Type} (ofName? : String → Option α) : Encoded → Option α
  | .text name => ofName? name
  | .fields [(name, .null)] => ofName? name
  | _ => none

def parts? (names : List String) : Encoded → Option (List (Option Encoded))
  | .fields entries => some (names.map fun name => entries.lookup name)
  | .list items =>
    if items.length ≤ names.length then
      some (items.map some ++ List.replicate (names.length - items.length) none)
    else none
  | _ => none

def needed? {α : Type} (decode? : Encoded → Option α) (part? : Option Encoded) : Option α :=
  part?.bind decode?

def defaulted? {α : Type} (default : α) (decode? : Encoded → Option α) :
    Option Encoded → Option α
  | some data => decode? data
  | none => some default

end Encoded

end RecordQuery
