import RecordQuery.Alias
import RecordQuery.Document.Writer
import RecordQuery.Proofs.Markup.Tags
import RecordQuery.Proofs.Text.Numerals

namespace RecordQuery

open Markup (isAttributeText isPlainName)

theorem Tag.ofName?_name (tag : Tag) : Tag.ofName? tag.name = some tag := by
  cases tag <;> decide

theorem Tag.isPlainName_name (tag : Tag) : isPlainName tag.name = true := by
  cases tag <;> decide

theorem AggregateFunction.ofKeyword?_keyword (function : AggregateFunction) :
    AggregateFunction.ofKeyword? function.keyword = some function := by
  cases function <;> decide

theorem DateGrouping.ofKeyword?_keyword (grouping : DateGrouping) :
    DateGrouping.ofKeyword? grouping.keyword = some grouping := by
  cases grouping <;> decide

theorem JoinKind.ofKeyword?_keyword (kind : JoinKind) :
    JoinKind.ofKeyword? kind.keyword = some kind := by
  cases kind <;> decide

theorem Connective.ofKeyword?_keyword (connective : Connective) :
    Connective.ofKeyword? connective.keyword = some connective := by
  cases connective <;> decide

theorem Operator.ofKeyword?_keyword {operator : Operator} {keyword : String}
    (h : operator.keyword? = some keyword) : Operator.ofKeyword? keyword = some operator := by
  have hall : ∀ candidate ∈ Operator.all, ∀ word ∈ candidate.keyword?,
      Operator.ofKeyword? word = some candidate := by
    decide +kernel
  exact hall operator (Operator.mem_all operator) keyword h

theorem Operator.written_of_keyword? {operator : Operator} {keyword : String}
    (h : operator.keyword? = some keyword) : operator.written = (keyword, id) := by
  unfold Operator.written
  split
  · contradiction
  · contradiction
  · rw [h]
    rfl

theorem AggregateFunction.isAttributeText_keyword (function : AggregateFunction) :
    isAttributeText function.keyword = true := by
  cases function <;> decide

theorem DateGrouping.isAttributeText_keyword (grouping : DateGrouping) :
    isAttributeText grouping.keyword = true := by
  cases grouping <;> decide

theorem JoinKind.isAttributeText_keyword (kind : JoinKind) :
    isAttributeText kind.keyword = true := by
  cases kind <;> decide

theorem Connective.isAttributeText_keyword (connective : Connective) :
    isAttributeText connective.keyword = true := by
  cases connective <;> decide

theorem Operator.isAttributeText_keyword {operator : Operator} {keyword : String}
    (h : operator.keyword? = some keyword) : isAttributeText keyword = true := by
  have hall : ∀ candidate ∈ Operator.all, candidate.keyword?.all isAttributeText = true := by
    decide +kernel
  have hkeyword := hall operator (Operator.mem_all operator)
  rw [h] at hkeyword
  exact hkeyword

theorem isAttributeText_of_ascii {text : String}
    (h : ∀ c ∈ text.toList, 0x20 < c.toNat ∧ c.toNat < 0x7F) : isAttributeText text = true := by
  rw [Markup.isAttributeText_iff]
  constructor
  · rw [List.all_eq_true]
    intro c hc
    obtain ⟨hlow, hhigh⟩ := h c hc
    have hbound : 0x20 ≤ c.toNat ∧ c.toNat ≠ 0xFFFE ∧ c.toNat ≠ 0xFFFF := by omega
    simp [Markup.isAllowed, hbound]
  · intro c hc
    obtain ⟨hlow, -⟩ := h c hc
    refine ⟨?_, ?_, ?_⟩ <;>
      · rintro rfl
        exact absurd hlow (by decide)

theorem isAttributeText_natText (n : Nat) : isAttributeText (Text.natText n) = true := by
  apply isAttributeText_of_ascii
  intro c hc
  rw [Text.toList_natText] at hc
  have hdigit := Text.isDigit_of_mem_natChars hc
  simp only [Text.isDigit, Bool.and_eq_true, decide_eq_true_eq, Char.le_def,
    UInt32.le_iff_toNat_le] at hdigit
  obtain ⟨hlow, hhigh⟩ := hdigit
  have hlow' : 48 ≤ c.toNat := hlow
  have hhigh' : c.toNat ≤ 57 := hhigh
  omega

theorem bounds_of_isNameChar {c : Char} (h : isNameChar c = true) :
    0x20 < c.toNat ∧ c.toNat < 0x7F := by
  have hval : c.val.toNat = c.toNat := rfl
  replace h : ((decide (65 ≤ c.val ∧ c.val ≤ 90) || (97 ≤ c.val && c.val ≤ 122)) ||
      (48 ≤ c.val && c.val ≤ 57) || c == '_') = true := h
  simp only [Bool.or_eq_true, Bool.and_eq_true, decide_eq_true_eq, beq_iff_eq,
    UInt32.le_iff_toNat_le] at h
  rcases h with ((h | h) | h) | rfl
  · have hlow : 65 ≤ c.val.toNat := h.1
    have hhigh : c.val.toNat ≤ 90 := h.2
    omega
  · have hlow : 97 ≤ c.val.toNat := h.1
    have hhigh : c.val.toNat ≤ 122 := h.2
    omega
  · have hlow : 48 ≤ c.val.toNat := h.1
    have hhigh : c.val.toNat ≤ 57 := h.2
    omega
  · decide

theorem isAttributeText_of_isValid {aliasName : String} (h : Aliases.isValid aliasName = true) :
    isAttributeText aliasName = true :=
  isAttributeText_of_ascii fun c hc => bounds_of_isNameChar (Aliases.isNameChar_of_isValid h c hc)

end RecordQuery
