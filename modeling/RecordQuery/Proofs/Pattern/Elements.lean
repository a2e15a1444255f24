import Mathlib.Data.List.Forall2
import RecordQuery.Pattern

/-!
Patterns by their elements. Read from the left, a pattern is a sequence of elements in exactly one
way, and an element says which pieces of a text it takes. A text is cut by elements if it falls into
consecutive pieces, one for each of them.
-/

namespace RecordQuery.Pattern

def StartsRange (members : List Char) : Prop :=
  ∃ low high rest, members = low :: '-' :: high :: rest

inductive Listed (c : Char) : List Char → Prop
  | range {low high : Char} {rest : List Char} : low ≤ c → c ≤ high →
    Listed c (low :: '-' :: high :: rest)
  | behindRange {low high : Char} {rest : List Char} : Listed c rest →
    Listed c (low :: '-' :: high :: rest)
  | char {rest : List Char} : ¬ StartsRange (c :: rest) → Listed c (c :: rest)
  | behindChar {other : Char} {rest : List Char} : ¬ StartsRange (other :: rest) →
    Listed c rest → Listed c (other :: rest)

inductive Element where
  | sequence
  | anyChar
  | inside (members : List Char)
  | outside (members : List Char)
  | char (c : Char)

inductive Element.Takes : Element → List Char → Prop
  | sequence (piece : List Char) : Takes .sequence piece
  | anyChar (c : Char) : Takes .anyChar [c]
  | inside {members : List Char} {c : Char} : Listed c members → Takes (.inside members) [c]
  | outside {members : List Char} {c : Char} : ¬ Listed c members → Takes (.outside members) [c]
  | char (c : Char) : Takes (.char c) [c]

inductive Reads : List Char → List Element → Prop
  | nil : Reads [] []
  | sequence {rest : List Char} {elements : List Element} : Reads rest elements →
    Reads ('%' :: rest) (.sequence :: elements)
  | anyChar {rest : List Char} {elements : List Element} : Reads rest elements →
    Reads ('_' :: rest) (.anyChar :: elements)
  | inside {members rest : List Char} {elements : List Element} : ']' ∉ members →
    members.head? ≠ some '^' → Reads rest elements →
    Reads ('[' :: (members ++ ']' :: rest)) (.inside members :: elements)
  | outside {members rest : List Char} {elements : List Element} : ']' ∉ members →
    Reads rest elements →
    Reads ('[' :: '^' :: (members ++ ']' :: rest)) (.outside members :: elements)
  | bracket {rest : List Char} {elements : List Element} : ']' ∉ rest → Reads rest elements →
    Reads ('[' :: rest) (.char '[' :: elements)
  | char {c : Char} {rest : List Char} {elements : List Element} : c ∉ ['%', '_', '['] →
    Reads rest elements → Reads (c :: rest) (.char c :: elements)

/-- The text falls into consecutive pieces, one for each element. -/
def Cuts (elements : List Element) (text : List Char) : Prop :=
  ∃ pieces, List.Forall₂ Element.Takes elements pieces ∧ pieces.flatten = text

variable {elements : List Element} {text : List Char}

theorem cuts_nil : Cuts [] text ↔ text = [] := by
  constructor
  · rintro ⟨_, ⟨⟩, rfl⟩
    rfl
  · rintro rfl
    exact ⟨[], .nil, rfl⟩

theorem cuts_cons {element : Element} :
    Cuts (element :: elements) text ↔
      ∃ piece rest, text = piece ++ rest ∧ element.Takes piece ∧ Cuts elements rest := by
  constructor
  · rintro ⟨_, hpieces, rfl⟩
    obtain ⟨piece, pieces, htakes, hrest, rfl⟩ := List.forall₂_cons_left_iff.mp hpieces
    exact ⟨piece, pieces.flatten, rfl, htakes, pieces, hrest, rfl⟩
  · rintro ⟨piece, _, rfl, htakes, pieces, hpieces, rfl⟩
    exact ⟨piece :: pieces, .cons htakes hpieces, rfl⟩

theorem cuts_sequence : Cuts (.sequence :: elements) text ↔
    ∃ piece rest, text = piece ++ rest ∧ Cuts elements rest := by
  rw [cuts_cons]
  constructor
  · rintro ⟨piece, rest, htext, -, hrest⟩
    exact ⟨piece, rest, htext, hrest⟩
  · rintro ⟨piece, rest, htext, hrest⟩
    exact ⟨piece, rest, htext, .sequence piece, hrest⟩

theorem cuts_single {element : Element} {admits : Char → Prop}
    (h : ∀ piece, element.Takes piece ↔ ∃ c, piece = [c] ∧ admits c) :
    Cuts (element :: elements) text ↔
      ∃ c rest, text = c :: rest ∧ admits c ∧ Cuts elements rest := by
  rw [cuts_cons]
  constructor
  · rintro ⟨piece, rest, rfl, htakes, hrest⟩
    obtain ⟨c, rfl, hc⟩ := (h piece).mp htakes
    exact ⟨c, rest, rfl, hc, hrest⟩
  · rintro ⟨c, rest, rfl, hc, hrest⟩
    exact ⟨[c], rest, rfl, (h [c]).mpr ⟨c, rfl, hc⟩, hrest⟩

theorem span_bracket {members : List Char} (rest : List Char) (h : ']' ∉ members) :
    (members ++ ']' :: rest).takeWhile (· != ']') = members ∧
      (members ++ ']' :: rest).dropWhile (· != ']') = ']' :: rest := by
  have hmembers : ∀ c ∈ members, (c != ']') = true := fun c hc =>
    bne_iff_ne.mpr fun heq => h (heq ▸ hc)
  rw [List.takeWhile_append_of_pos hmembers, List.dropWhile_append_of_pos hmembers]
  exact ⟨List.append_nil members, rfl⟩

theorem append_bracket_inj {members others rest rest' : List Char} (h : ']' ∉ members)
    (h' : ']' ∉ others) (heq : members ++ ']' :: rest = others ++ ']' :: rest') :
    members = others ∧ rest = rest' := by
  have hmembers := span_bracket rest h
  have hothers := span_bracket rest' h'
  rw [heq] at hmembers
  exact ⟨hmembers.1.symm.trans hothers.1, (List.cons.inj (hmembers.2.symm.trans hothers.2)).2⟩

theorem exists_reads_class {rest : List Char} (h : ']' ∈ rest)
    (ih : ∀ after : List Char, after.length < rest.length → ∃ elements, Reads after elements) :
    ∃ elements, Reads ('[' :: rest) elements := by
  obtain ⟨members, after, rfl, hmembers⟩ := List.eq_append_cons_of_mem h
  obtain ⟨elements, helements⟩ := ih after (by simp; omega)
  match members with
  | [] => exact ⟨_, .inside hmembers (by simp) helements⟩
  | c :: others =>
    by_cases hc : c = '^'
    · subst hc
      exact ⟨_, .outside (fun hmem => hmembers (List.mem_cons_of_mem _ hmem)) helements⟩
    · exact ⟨_, .inside hmembers (by simpa using hc) helements⟩

theorem exists_reads (text : List Char) : ∃ elements, Reads text elements := by
  induction hlength : text.length using Nat.strongRecOn generalizing text with
  | ind length ih =>
    subst hlength
    cases text with
    | nil => exact ⟨[], .nil⟩
    | cons c rest =>
      have hshorter : ∀ after : List Char, after.length ≤ rest.length →
          ∃ elements, Reads after elements := fun after hafter =>
        ih after.length (Nat.lt_succ_of_le hafter) after rfl
      obtain ⟨elements, helements⟩ := hshorter rest (Nat.le_refl _)
      by_cases hspecial : c ∈ ['%', '_', '[']
      · simp only [List.mem_cons, List.not_mem_nil, or_false] at hspecial
        rcases hspecial with rfl | rfl | rfl
        · exact ⟨_, .sequence helements⟩
        · exact ⟨_, .anyChar helements⟩
        · by_cases hclosed : ']' ∈ rest
          · exact exists_reads_class hclosed fun after hafter =>
              hshorter after (Nat.le_of_lt hafter)
          · exact ⟨_, .bracket hclosed helements⟩
      · exact ⟨_, .char hspecial helements⟩

theorem Reads.unique {others : List Element} (h : Reads text elements) (h' : Reads text others) :
    others = elements := by
  induction h generalizing others with
  | nil =>
    cases h'
    rfl
  | sequence h ih =>
    cases h' with
    | sequence h' => rw [ih h']
    | char hc => simp at hc
  | anyChar h ih =>
    cases h' with
    | anyChar h' => rw [ih h']
    | char hc => simp at hc
  | @inside members rest elements hmembers hhead h ih =>
    generalize hrest : members ++ ']' :: rest = behind at h'
    cases h' with
    | inside hothers hhead' h' =>
      obtain ⟨rfl, rfl⟩ := append_bracket_inj hmembers hothers hrest
      rw [ih h']
    | outside hothers h' =>
      obtain ⟨rfl, -⟩ := append_bracket_inj hmembers (by simpa using hothers)
        (hrest.trans (List.cons_append ..).symm)
      simp at hhead
    | bracket hopen => simp [← hrest] at hopen
    | char hc => simp at hc
  | @outside members rest elements hmembers h ih =>
    generalize hrest : '^' :: (members ++ ']' :: rest) = behind at h'
    cases h' with
    | inside hothers hhead' h' =>
      obtain ⟨rfl, -⟩ := append_bracket_inj (by simpa using hmembers) hothers
        ((List.cons_append ..).trans hrest)
      simp at hhead'
    | outside hothers h' =>
      obtain ⟨rfl, rfl⟩ := append_bracket_inj hmembers hothers (List.cons.inj hrest).2
      rw [ih h']
    | bracket hopen => simp [← hrest] at hopen
    | char hc => simp at hc
  | bracket hopen h ih =>
    cases h' with
    | inside => simp at hopen
    | outside => simp at hopen
    | bracket _ h' => rw [ih h']
    | char hc => simp at hc
  | char hc h ih =>
    cases h' with
    | char _ h' => rw [ih h']
    | sequence | anyChar | inside | outside | bracket => simp at hc

end RecordQuery.Pattern
