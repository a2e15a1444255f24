namespace RecordQuery

structure Index (κ ν : Type) where
  entries : List (κ × ν)
  distinct : entries.Pairwise (·.1 ≠ ·.1)

namespace Index

variable {κ ν : Type}

def empty : Index κ ν := ⟨[], .nil⟩

instance : Inhabited (Index κ ν) := ⟨empty⟩

def keys (index : Index κ ν) : List κ := index.entries.map (·.1)

def values (index : Index κ ν) : List ν := index.entries.map (·.2)

def size (index : Index κ ν) : Nat := index.entries.length

variable [DecidableEq κ]

def get? (index : Index κ ν) (key : κ) : Option ν := index.entries.lookup key

def erase (index : Index κ ν) (key : κ) : Index κ ν :=
  ⟨index.entries.filter fun entry => entry.1 ≠ key, index.distinct.filter _⟩

def set (index : Index κ ν) (key : κ) (value : ν) : Index κ ν where
  entries := (key, value) :: (index.erase key).entries
  distinct := by
    refine List.pairwise_cons.2 ⟨fun entry member => ?_, (index.erase key).distinct⟩
    exact Ne.symm (by simpa using (List.mem_filter.1 member).2)

@[simp] theorem get?_empty (key : κ) : (empty : Index κ ν).get? key = none := rfl

theorem lookup_filter_ne (entries : List (κ × ν)) (key sought : κ) :
    (entries.filter fun entry => entry.1 ≠ key).lookup sought =
      if sought = key then none else entries.lookup sought := by
  induction entries with
  | nil => simp
  | cons entry rest ih =>
    obtain ⟨k, v⟩ := entry
    by_cases hk : k = key
    · subst hk
      by_cases h : sought = k
      · simpa [h] using ih
      · simpa [h, List.lookup_cons, beq_eq_false_iff_ne.2 h] using ih
    · by_cases h : sought = k
      · subst h
        simp [hk]
      · simpa [hk, h, List.lookup_cons, beq_eq_false_iff_ne.2 h] using ih

@[simp] theorem get?_erase (index : Index κ ν) (key sought : κ) :
    (index.erase key).get? sought = if sought = key then none else index.get? sought :=
  lookup_filter_ne index.entries key sought

@[simp] theorem get?_set (index : Index κ ν) (key : κ) (value : ν) (sought : κ) :
    (index.set key value).get? sought = if sought = key then some value else index.get? sought := by
  by_cases h : sought = key
  · simp [get?, set, h]
  · have hrest := index.get?_erase key sought
    rw [if_neg h] at hrest
    simp only [get?, set, List.lookup_cons, beq_eq_false_iff_ne.2 h, if_neg h]
    exact hrest

end Index

end RecordQuery
