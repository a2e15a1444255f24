import RecordQuery.Error
import RecordQuery.Query.Link

namespace RecordQuery

def isNameStart (c : Char) : Bool := c.isAlpha || c == '_'

def isNameChar (c : Char) : Bool := c.isAlphanum || c == '_'

structure Aliases where
  taken : List String
  deriving DecidableEq, Repr

namespace Aliases

def empty : Aliases := ⟨[]⟩

instance : Inhabited Aliases := ⟨empty⟩

def isValid (aliasName : String) : Bool :=
  match aliasName.toList with
  | [] => false
  | c :: rest => isNameStart c && rest.all isNameChar

theorem isNameChar_of_isNameStart {c : Char} (h : isNameStart c = true) : isNameChar c = true := by
  simp only [isNameStart, Bool.or_eq_true] at h
  simp only [isNameChar, Char.isAlphanum, Bool.or_eq_true]
  exact h.imp Or.inl id

theorem isNameChar_of_isValid {aliasName : String} (h : isValid aliasName = true) :
    ∀ c ∈ aliasName.toList, isNameChar c = true := by
  unfold isValid at h
  split at h
  · contradiction
  · rename_i first rest hchars
    rw [Bool.and_eq_true, List.all_eq_true] at h
    rw [hchars]
    exact List.forall_mem_cons.mpr ⟨isNameChar_of_isNameStart h.1, h.2⟩

def reserve (aliases : Aliases) (aliasName : String) : Except Error Aliases :=
  if !isValid aliasName then .error (.name (.invalidAlias aliasName))
  else if aliases.taken.contains aliasName then .error (.name (.repeatedAlias aliasName))
  else .ok ⟨aliasName :: aliases.taken⟩

def reserveAll (aliases : Aliases) : List String → Aliases × Except Error Unit
  | [] => (aliases, .ok ())
  | aliasName :: rest =>
    match aliases.reserve aliasName with
    | .ok reserved => reserved.reserveAll rest
    | .error fault => (aliases, .error fault)

def candidate (entity : String) : Nat → String
  | 0 => entity
  | n + 1 => entity ++ Text.natText (n + 2)

def free (aliases : Aliases) (entity : String) : String :=
  (((List.range (aliases.taken.length + 1)).map (candidate entity)).find?
    fun name => !aliases.taken.contains name).getD entity

def allocate (aliases : Aliases) (entity : String) : String × Aliases :=
  let name := aliases.free entity
  (name, ⟨name :: aliases.taken⟩)

def allocateMissing (aliases : Aliases) (alias? : Option String) (entity : String) :
    String × Aliases :=
  match alias? with
  | some aliasName => (aliasName, aliases)
  | none => aliases.allocate entity

mutual

def nameLink (aliases : Aliases) : Link → Link × Aliases
  | ⟨source, entity, target, kind, alias?, columns, filter, orders, links⟩ =>
    let (aliasName, named) := aliases.allocateMissing alias? entity
    let (inner, after) := named.nameLinks links
    (⟨source, entity, target, kind, some aliasName, columns, filter, orders, inner⟩, after)

def nameLinks (aliases : Aliases) : List Link → List Link × Aliases
  | [] => ([], aliases)
  | link :: rest =>
    let (named, after) := aliases.nameLink link
    let (others, last) := after.nameLinks rest
    (named :: others, last)

end

def assign (aliases : Aliases) (links : List Link) : Aliases × Except Error (List Link) :=
  match aliases.reserveAll (Link.explicitAliasesAll links) with
  | (reserved, .ok ()) =>
    let (named, after) := reserved.nameLinks links
    (after, .ok named)
  | (reserved, .error fault) => (reserved, .error fault)

end Aliases

end RecordQuery
