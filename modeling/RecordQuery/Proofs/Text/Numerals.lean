import Mathlib.Algebra.Group.Nat.Defs
import RecordQuery.Text.Blank
import RecordQuery.Text.Numeral

namespace RecordQuery.Text

theorem isDigit_of_mem_natChars {n : Nat} {c : Char} (h : c ∈ natChars n) : isDigit c = true := by
  have hdigit : c.isDigit = true := Nat.isDigit_of_mem_toDigits (by decide) (by decide) h
  simp only [Char.isDigit, Bool.and_eq_true, decide_eq_true_eq] at hdigit
  simp only [isDigit, Bool.and_eq_true, decide_eq_true_eq]
  exact hdigit

theorem natChars_ne_nil (n : Nat) : natChars n ≠ [] :=
  Nat.toDigits_ne_nil

theorem digitsValue_natChars (n : Nat) : digitsValue (natChars n) = n := by
  have h := Nat.ofDigitChars_toDigits (n := n) (show 1 < 10 by decide) (show 10 ≤ 10 by decide)
  rw [Nat.ofDigitChars_eq_foldl] at h
  exact h

theorem natChars_injective {m n : Nat} (h : natChars m = natChars n) : m = n := by
  rw [← digitsValue_natChars m, h, digitsValue_natChars]

theorem readNat?_natChars (n : Nat) : readNat? (natChars n) = some n := by
  have hall : (natChars n).all isDigit = true :=
    List.all_eq_true.mpr fun c hc => isDigit_of_mem_natChars hc
  have hsome : (natChars n).isEmpty = false := by
    rw [List.isEmpty_eq_false_iff]
    exact natChars_ne_nil n
  simp [readNat?, hall, hsome, digitsValue_natChars]

theorem readUnsigned?_natChars (n : Nat) : readUnsigned? (natChars n) = some n := by
  cases hchars : natChars n with
  | nil => exact absurd hchars (natChars_ne_nil n)
  | cons c rest =>
    have hc : isDigit c = true := isDigit_of_mem_natChars (n := n) (by rw [hchars]; simp)
    have hplus : c ≠ '+' := by
      rintro rfl
      exact absurd hc (by decide)
    rw [← readNat?_natChars n, hchars]
    unfold readUnsigned?
    split
    · rename_i heq
      exact absurd (List.cons.inj heq).1 hplus
    · rfl

theorem not_isBlank_of_isDigit {c : Char} (h : isDigit c = true) : isBlank c = false := by
  simp only [isDigit, Bool.and_eq_true, decide_eq_true_eq, Char.le_def, UInt32.le_iff_toNat_le] at h
  obtain ⟨hlow, hhigh⟩ := h
  have hlow' : 48 ≤ c.toNat := hlow
  have hhigh' : c.toNat ≤ 57 := hhigh
  simp only [isBlank, Bool.or_eq_false_iff, Bool.and_eq_false_iff, decide_eq_false_iff_not,
    beq_eq_false_iff_ne]
  omega

theorem trimLeft_of_not_isBlank {text : List Char} (h : ∀ c ∈ text, isBlank c = false) :
    trimLeft text = text := by
  cases text with
  | nil => rfl
  | cons c rest => simp [trimLeft, h c (by simp)]

theorem trimChars_of_not_isBlank {text : List Char} (h : ∀ c ∈ text, isBlank c = false) :
    trimChars text = text := by
  have hreverse : ∀ c ∈ text.reverse, isBlank c = false := fun c hc => h c (by simpa using hc)
  rw [trimChars, trimLeft_of_not_isBlank h, trimRight, trimLeft_of_not_isBlank hreverse,
    List.reverse_reverse]

theorem trim_natText (n : Nat) : trim (natText n) = natText n := by
  unfold trim natText
  rw [String.toList_ofList, trimChars_of_not_isBlank]
  exact fun c hc => not_isBlank_of_isDigit (isDigit_of_mem_natChars hc)

theorem toList_natText (n : Nat) : (natText n).toList = natChars n :=
  String.toList_ofList

theorem digitsValue_replicate_append (zeros : Nat) (digits : List Char) :
    digitsValue (List.replicate zeros '0' ++ digits) = digitsValue digits := by
  induction zeros with
  | zero => rfl
  | succ zeros ih => exact ih

theorem digitsValue_paddedChars (width n : Nat) : digitsValue (paddedChars width n) = n := by
  unfold paddedChars
  dsimp only
  rw [digitsValue_replicate_append, digitsValue_natChars]

theorem isDigit_of_mem_paddedChars {width n : Nat} {c : Char} (h : c ∈ paddedChars width n) :
    isDigit c = true := by
  rcases List.mem_append.mp h with hzero | hdigit
  · rw [List.eq_of_mem_replicate hzero]
    decide
  · exact isDigit_of_mem_natChars hdigit

theorem length_paddedChars {width n : Nat} (hwidth : 0 < width) (h : n < 10 ^ width) :
    (paddedChars width n).length = width := by
  have hlength : (natChars n).length ≤ width :=
    (Nat.length_toDigits_le_iff (by decide) hwidth).mpr h
  rw [paddedChars, List.length_append, List.length_replicate]
  omega

theorem le_length_paddedChars (width n : Nat) : width ≤ (paddedChars width n).length := by
  rw [paddedChars, List.length_append, List.length_replicate]
  omega

theorem exists_cons_natChars (n : Nat) :
    ∃ c rest, natChars n = c :: rest ∧ c ≠ '-' ∧ c ≠ '+' := by
  cases hchars : natChars n with
  | nil => exact absurd hchars (natChars_ne_nil n)
  | cons c rest =>
    have hc : isDigit c = true := isDigit_of_mem_natChars (n := n) (by rw [hchars]; simp)
    refine ⟨c, rest, rfl, ?_, ?_⟩
    · rintro rfl
      exact absurd hc (by decide)
    · rintro rfl
      exact absurd hc (by decide)

theorem readInt?_natChars (n : Nat) : readInt? (natChars n) = some (n : Int) := by
  obtain ⟨c, rest, hchars, hminus, hplus⟩ := exists_cons_natChars n
  have hread := readNat?_natChars n
  rw [hchars] at hread ⊢
  unfold readInt?
  split
  · rename_i heq
    exact absurd (List.cons.inj heq).1 hminus
  · rename_i heq
    exact absurd (List.cons.inj heq).1 hplus
  · rw [hread]
    rfl

theorem readInt?_minus (n : Nat) : readInt? ('-' :: natChars n) = some (-(n : Int)) := by
  simp [readInt?, readNat?_natChars]

theorem readInt?_intChars (n : Int) : readInt? (intChars n) = some n := by
  cases n with
  | ofNat n => exact readInt?_natChars n
  | negSucc n => exact readInt?_minus (n + 1)

theorem not_isBlank_of_mem_intChars {n : Int} {c : Char} (h : c ∈ intChars n) :
    isBlank c = false := by
  cases n with
  | ofNat n => exact not_isBlank_of_isDigit (isDigit_of_mem_natChars h)
  | negSucc n =>
    rcases List.mem_cons.mp h with rfl | h
    · decide
    · exact not_isBlank_of_isDigit (isDigit_of_mem_natChars h)

theorem trimChars_intText (n : Int) : trimChars (intText n).toList = intChars n := by
  rw [intText, String.toList_ofList, trimChars_of_not_isBlank]
  exact fun c => not_isBlank_of_mem_intChars

theorem fitsInt64_toInt (n : Int64) : FitsInt64 n.toInt :=
  ⟨n.le_toInt, n.toInt_lt⟩

theorem fitsInt32_toInt (n : Int32) : FitsInt32 n.toInt :=
  ⟨n.le_toInt, n.toInt_lt⟩

theorem readInt64?_intChars (n : Int64) : readInt64? (intChars n.toInt) = some n := by
  rw [readInt64?, readInt?_intChars, Option.bind_some, if_pos (fitsInt64_toInt n),
    Int64.ofInt_toInt]

theorem readInt32?_intChars (n : Int32) : readInt32? (intChars n.toInt) = some n := by
  rw [readInt32?, readInt?_intChars, Option.bind_some, if_pos (fitsInt32_toInt n),
    Int32.ofInt_toInt]

end RecordQuery.Text
