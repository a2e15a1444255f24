import RecordQuery.Proofs.Text.Numerals
import RecordQuery.Uuid

namespace RecordQuery.Uuid

theorem hexDigit?_digitChar : ∀ digit < 16, hexDigit? (Nat.digitChar digit) = some digit := by
  decide

theorem readHex?_append_singleton (digits : List Char) (c : Char) :
    readHex? (digits ++ [c]) =
      (readHex? digits).bind fun value => (hexDigit? c).map (16 * value + ·) := by
  rw [readHex?, List.foldlM_append]
  congr 1
  funext value
  simp

theorem readHex?_toDigits (n : Nat) : readHex? (Nat.toDigits 16 n) = some n := by
  induction n using Nat.strongRecOn with
  | ind n ih =>
    rw [Nat.toDigits_eq_if (by decide)]
    split
    · rename_i hlt
      rw [← List.nil_append [_], readHex?_append_singleton, hexDigit?_digitChar n hlt]
      simp [readHex?]
    · rename_i hge
      have hdigit : n % 16 < 16 := Nat.mod_lt n (by decide)
      rw [readHex?_append_singleton, ih (n / 16) (by omega), Option.bind_some,
        hexDigit?_digitChar _ hdigit, Option.map_some, Nat.div_add_mod]

theorem readHex?_replicate_append (zeros : Nat) (digits : List Char) :
    readHex? (List.replicate zeros '0' ++ digits) = readHex? digits := by
  induction zeros with
  | zero => rfl
  | succ zeros ih => exact ih

theorem readHex?_hexChars (width n : Nat) : readHex? (hexChars width n) = some n := by
  unfold hexChars
  dsimp only
  rw [readHex?_replicate_append, readHex?_toDigits]

theorem length_hexChars {width n : Nat} (hwidth : 0 < width) (h : n < 16 ^ width) :
    (hexChars width n).length = width := by
  have hlength : (Nat.toDigits 16 n).length ≤ width :=
    (Nat.length_toDigits_le_iff (by decide) hwidth).mpr h
  rw [hexChars, List.length_append, List.length_replicate]
  omega

theorem readHyphenated?_groups {a b c d e : List Char} (ha : a.length = 8) (hb : b.length = 4)
    (hc : c.length = 4) (hd : d.length = 4) (he : e.length = 12) :
    readHyphenated? (a ++ '-' :: b ++ '-' :: c ++ '-' :: d ++ '-' :: e) =
      readSimple? (a ++ b ++ c ++ d ++ e) := by
  unfold readHyphenated?
  have hnone : ∀ {group : List Char} {n : Nat}, group.length ≤ n → group.drop n = [] :=
    List.drop_of_length_le
  simp [List.drop_append, ha, hb, hc, hd, he, hnone]

theorem exists_digit_of_mem_toDigits (n : Nat) :
    ∀ c ∈ Nat.toDigits 16 n, ∃ digit < 16, c = Nat.digitChar digit := by
  induction n using Nat.strongRecOn with
  | ind n ih =>
    intro c hc
    rw [Nat.toDigits_eq_if (by decide)] at hc
    split at hc
    · rename_i hlt
      exact ⟨n, hlt, List.mem_singleton.mp hc⟩
    · rcases List.mem_append.mp hc with hfront | hlast
      · exact ih (n / 16) (by omega) c hfront
      · exact ⟨n % 16, Nat.mod_lt n (by decide), List.mem_singleton.mp hlast⟩

theorem not_isBlank_of_mem_hexChars {width n : Nat} {c : Char} (h : c ∈ hexChars width n) :
    Text.isBlank c = false := by
  have hdigit : ∀ digit < 16, Text.isBlank (Nat.digitChar digit) = false := by decide
  rcases List.mem_append.mp h with hzero | hchar
  · rw [List.eq_of_mem_replicate hzero]
    decide
  · obtain ⟨digit, hlt, rfl⟩ := exists_digit_of_mem_toDigits n c hchar
    exact hdigit digit hlt

theorem not_isBlank_of_mem_toChars {id : Uuid} {c : Char} (h : c ∈ id.toChars) :
    Text.isBlank c = false := by
  have hcases : c = '-' ∨ c ∈ hexChars 32 id.toNat := by
    simp only [toChars, List.mem_append, List.mem_cons] at h
    rcases h with (((h | h | h) | h | h) | h | h) | h | h
    · exact Or.inr (List.mem_of_mem_take h)
    · exact Or.inl h
    · exact Or.inr (List.mem_of_mem_drop (List.mem_of_mem_take h))
    · exact Or.inl h
    · exact Or.inr (List.mem_of_mem_drop (List.mem_of_mem_take h))
    · exact Or.inl h
    · exact Or.inr (List.mem_of_mem_drop (List.mem_of_mem_take h))
    · exact Or.inl h
    · exact Or.inr (List.mem_of_mem_drop h)
  rcases hcases with rfl | hdigit
  · decide
  · exact not_isBlank_of_mem_hexChars hdigit

theorem readSimple?_hexChars (id : Uuid) : readSimple? (hexChars 32 id.toNat) = some id := by
  rw [readSimple?, if_pos (length_hexChars (by decide) id.bits.isLt), readHex?_hexChars,
    Option.map_some, ofNat, toNat, BitVec.ofNat_toNat, BitVec.setWidth_eq]

theorem read?_toChars (id : Uuid) : read? id.toChars = some id := by
  have hread := readSimple?_hexChars id
  have hlength : (hexChars 32 id.toNat).length = 32 := length_hexChars (by decide) id.bits.isLt
  unfold toChars
  dsimp only
  generalize hexChars 32 id.toNat = digits at hread hlength
  have hgroups : digits.take 8 ++ (digits.drop 8).take 4 ++ (digits.drop 12).take 4 ++
      (digits.drop 16).take 4 ++ digits.drop 20 = digits := by
    have hdrop : ∀ n k, digits.drop (n + k) = (digits.drop n).drop k := fun n k => by simp
    rw [hdrop 16 4, List.append_assoc, List.take_append_drop, hdrop 12 4, List.append_assoc,
      List.take_append_drop, hdrop 8 4, List.append_assoc, List.take_append_drop,
      List.take_append_drop]
  generalize htext : _ ++ '-' :: digits.drop 20 = text
  have htotal : text.length = 36 := by
    simp [← htext, hlength]
  have hhyphenated : readHyphenated? text = some id := by
    rw [← htext, readHyphenated?_groups (by simp [hlength]) (by simp [hlength])
      (by simp [hlength]) (by simp [hlength]) (by simp [hlength]), hgroups, hread]
  unfold read?
  simp only [htotal, hhyphenated]

theorem read?_text (id : Uuid) : read? (Text.trimChars id.text.toList) = some id := by
  rw [text, String.toList_ofList,
    Text.trimChars_of_not_isBlank fun c => not_isBlank_of_mem_toChars, read?_toChars]

end RecordQuery.Uuid
