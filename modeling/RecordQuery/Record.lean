import RecordQuery.Value.Basic

/-!
Records: an entity, an identifier, and values under the names of attributes. What is joined to a
record is held under qualified names, with the alias of the join, a point and the name.
-/

namespace RecordQuery

/-- Values under names. The entries are in ascending order of the names, so that equal
assignments are equal. -/
structure Attributes where
  entries : List (String × Value)
  ascending : entries.Pairwise (·.1 < ·.1)

namespace Attributes

def empty : Attributes := ⟨[], .nil⟩

instance : Inhabited Attributes := ⟨empty⟩

def get? (attributes : Attributes) (name : String) : Option Value :=
  attributes.entries.lookup name

def contains (attributes : Attributes) (name : String) : Bool :=
  (attributes.get? name).isSome

def names (attributes : Attributes) : List String :=
  attributes.entries.map (·.1)

def size (attributes : Attributes) : Nat := attributes.entries.length

def isEmpty (attributes : Attributes) : Bool := attributes.entries.isEmpty

def insertEntry (name : String) (value : Value) : List (String × Value) → List (String × Value)
  | [] => [(name, value)]
  | (n, v) :: rest =>
    if name < n then (name, value) :: (n, v) :: rest
    else if name = n then (name, value) :: rest
    else (n, v) :: insertEntry name value rest

theorem mem_insertEntry {name : String} {value : Value} {entries : List (String × Value)}
    {entry : String × Value} (h : entry ∈ insertEntry name value entries) :
    entry = (name, value) ∨ entry ∈ entries := by
  induction entries with
  | nil => simpa [insertEntry] using h
  | cons first rest ih =>
    unfold insertEntry at h
    split at h
    · simpa using h
    · split at h
      · rcases List.mem_cons.1 h with h | h
        · exact .inl h
        · exact .inr (List.mem_cons_of_mem _ h)
      · rcases List.mem_cons.1 h with h | h
        · exact .inr (h ▸ List.mem_cons_self)
        · exact (ih h).imp_right (List.mem_cons_of_mem _)

theorem lt_of_not_lt_of_ne {a b : String} (notLt : ¬ a < b) (ne : a ≠ b) : b < a := by
  rcases String.le_total a b with h | h
  · exact absurd (String.le_antisymm h (String.not_lt.1 notLt)) ne
  · exact Classical.byContradiction fun notGt =>
      ne (String.le_antisymm (String.not_lt.1 notGt) h)

theorem insertEntry_ascending {name : String} {value : Value} {entries : List (String × Value)}
    (h : entries.Pairwise (·.1 < ·.1)) : (insertEntry name value entries).Pairwise (·.1 < ·.1) := by
  induction entries with
  | nil => simp [insertEntry]
  | cons first rest ih =>
    obtain ⟨n, v⟩ := first
    rw [List.pairwise_cons] at h
    unfold insertEntry
    split
    · rename_i lt
      refine List.pairwise_cons.2 ⟨fun entry member => ?_, List.pairwise_cons.2 h⟩
      rcases List.mem_cons.1 member with rfl | member
      · exact lt
      · exact String.lt_trans lt (h.1 entry member)
    · split
      · rename_i eq
        subst eq
        exact List.pairwise_cons.2 h
      · rename_i notLt ne
        refine List.pairwise_cons.2 ⟨fun entry member => ?_, ih h.2⟩
        rcases mem_insertEntry member with rfl | member
        · exact lt_of_not_lt_of_ne notLt ne
        · exact h.1 entry member

def set (attributes : Attributes) (name : String) (value : Value) : Attributes :=
  ⟨insertEntry name value attributes.entries, insertEntry_ascending attributes.ascending⟩

def filter (attributes : Attributes) (keep : String → Value → Bool) : Attributes :=
  ⟨attributes.entries.filter fun entry => keep entry.1 entry.2, attributes.ascending.filter _⟩

def erase (attributes : Attributes) (name : String) : Attributes :=
  attributes.filter fun n _ => n != name

def ofList (entries : List (String × Value)) : Attributes :=
  entries.foldl (fun attributes entry => attributes.set entry.1 entry.2) empty

def sameEntries : List (String × Value) → List (String × Value) → Bool
  | [], [] => true
  | a :: as, b :: bs => a.1 == b.1 && a.2.same b.2 && sameEntries as bs
  | _, _ => false

def same (a b : Attributes) : Bool :=
  sameEntries a.entries b.entries

theorem lookup_insertEntry (name : String) (value : Value) (entries : List (String × Value))
    (n : String) :
    (insertEntry name value entries).lookup n =
      if n = name then some value else entries.lookup n := by
  induction entries with
  | nil =>
    by_cases h : n = name
    · simp [insertEntry, h]
    · simp [insertEntry, List.lookup_cons, List.lookup_nil, h, beq_eq_false_iff_ne.2 h]
  | cons first rest ih =>
    obtain ⟨m, v⟩ := first
    unfold insertEntry
    split
    · by_cases h : n = name
      · simp [h]
      · simp [List.lookup_cons, h, beq_eq_false_iff_ne.2 h]
    · split
      · rename_i eq
        subst eq
        by_cases h : n = name
        · simp [h]
        · simp [List.lookup_cons, h, beq_eq_false_iff_ne.2 h]
      · rename_i ne
        by_cases h : n = m
        · subst h
          simp [Ne.symm ne]
        · simp [List.lookup_cons, beq_eq_false_iff_ne.2 h, ih]

@[simp] theorem get?_set (attributes : Attributes) (name : String) (value : Value) (n : String) :
    (attributes.set name value).get? n = if n = name then some value else attributes.get? n :=
  lookup_insertEntry name value attributes.entries n

end Attributes

structure Record where
  entity : String
  id : Uuid
  attributes : Attributes

namespace Record

instance : Inhabited Record := ⟨⟨"", .nil, .empty⟩⟩

def defaultIdName (entity : String) : String := entity ++ "id"

def qualify (aliasName name : String) : String := aliasName ++ "." ++ name

def isQualified (name : String) : Bool := name.toList.contains '.'

def get? (record : Record) (name : String) : Option Value := record.attributes.get? name

def getUnwrapped? (record : Record) (name : String) : Option Value :=
  (record.get? name).map Value.unwrap

def set (record : Record) (name : String) (value : Value) : Record :=
  { record with attributes := record.attributes.set name value }

def erase (record : Record) (name : String) : Record :=
  { record with attributes := record.attributes.erase name }

def filter (record : Record) (keep : String → Value → Bool) : Record :=
  { record with attributes := record.attributes.filter keep }

/-- Takes the attributes of another record in under an alias, and leaves out what that record
holds from joins of its own. -/
def merge (record : Record) (aliasName : String) (other : Record) : Record :=
  (other.attributes.entries.filter fun entry => !isQualified entry.1).foldl
    (fun merged entry =>
      merged.set (qualify aliasName entry.1) (.aliased aliasName entry.1 entry.2.unwrap))
    record

end Record

end RecordQuery
