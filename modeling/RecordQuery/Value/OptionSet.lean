namespace RecordQuery

structure OptionSet where
  codes : List Int32
  ascending : codes.Pairwise (· < ·)
  deriving DecidableEq

namespace OptionSet

def empty : OptionSet := ⟨[], .nil⟩

instance : Inhabited OptionSet := ⟨empty⟩

def insertCode (code : Int32) : List Int32 → List Int32
  | [] => [code]
  | c :: rest =>
    if code < c then code :: c :: rest
    else if code = c then c :: rest
    else c :: insertCode code rest

theorem mem_insertCode {code x : Int32} {codes : List Int32} :
    x ∈ insertCode code codes ↔ x = code ∨ x ∈ codes := by
  induction codes with
  | nil => simp [insertCode]
  | cons c rest ih =>
    unfold insertCode
    split
    · simp
    · split
      · simp_all
      · simp only [List.mem_cons, ih]
        constructor
        · rintro (h | h | h) <;> simp [h]
        · rintro (h | h | h) <;> simp [h]

theorem insertCode_ascending {code : Int32} {codes : List Int32}
    (h : codes.Pairwise (· < ·)) : (insertCode code codes).Pairwise (· < ·) := by
  induction codes with
  | nil => simp [insertCode]
  | cons c rest ih =>
    rw [List.pairwise_cons] at h
    unfold insertCode
    split
    · rename_i lt
      refine List.pairwise_cons.2 ⟨fun x member => ?_, List.pairwise_cons.2 h⟩
      rcases List.mem_cons.1 member with rfl | member
      · exact lt
      · exact Int32.lt_trans lt (h.1 x member)
    · split
      · exact List.pairwise_cons.2 h
      · rename_i notLt ne
        refine List.pairwise_cons.2 ⟨fun x member => ?_, ih h.2⟩
        rcases mem_insertCode.1 member with rfl | member
        · exact Int32.lt_of_le_of_ne (Int32.not_lt.1 notLt) fun eq => ne eq.symm
        · exact h.1 x member

def insert (set : OptionSet) (code : Int32) : OptionSet :=
  ⟨insertCode code set.codes, insertCode_ascending set.ascending⟩

def ofList (codes : List Int32) : OptionSet :=
  codes.foldl insert empty

def singleton (code : Int32) : OptionSet := ⟨[code], by simp⟩

def isEmpty (set : OptionSet) : Bool := set.codes.isEmpty

def contains (set : OptionSet) (code : Int32) : Bool := set.codes.contains code

def overlaps (a b : OptionSet) : Bool := a.codes.any b.contains

instance : Membership Int32 OptionSet := ⟨fun set code => code ∈ set.codes⟩

end OptionSet

end RecordQuery
