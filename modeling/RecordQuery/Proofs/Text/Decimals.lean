import RecordQuery.Decimal.Reader
import RecordQuery.Proofs.Text.Numerals

namespace RecordQuery

namespace Text

theorem le_digitsValueFrom (start : Nat) (digits : List Char) :
    start ≤ digitsValueFrom start digits := by
  induction digits generalizing start with
  | nil => exact Nat.le_refl _
  | cons c rest ih =>
    have h : 10 * start + digitValue c ≤ digitsValueFrom start (c :: rest) := ih _
    omega

end Text

namespace Decimal

open Text

theorem readDigits?_append {mantissa scale : Nat} {afterPoint hasDigit : Bool} {digits : List Char}
    (behind : List Char) (hdigits : ∀ c ∈ digits, isDigit c = true)
    (hroom : digitsValueFrom mantissa digits < limit96)
    (hplaces : if afterPoint then scale + digits.length ≤ 28 else scale = 0) :
    readDigits? ⟨mantissa, scale, afterPoint, hasDigit⟩ (digits ++ behind) =
      readDigits? ⟨digitsValueFrom mantissa digits,
        if afterPoint then scale + digits.length else 0, afterPoint,
        hasDigit || !digits.isEmpty⟩ behind := by
  induction digits generalizing mantissa scale hasDigit with
  | nil =>
    have hscale : (if afterPoint then scale + ([] : List Char).length else 0) = scale := by
      cases afterPoint with
      | false => exact hplaces.symm
      | true => rfl
    rw [hscale, List.isEmpty_nil, Bool.not_true, Bool.or_false]
    rfl
  | cons c rest ih =>
    have hc := hdigits c List.mem_cons_self
    have hstep : digitsValueFrom mantissa (c :: rest) =
        digitsValueFrom (10 * mantissa + digitValue c) rest := rfl
    rw [hstep] at hroom ⊢
    have hmantissa : 10 * mantissa + digitValue c < limit96 :=
      Nat.lt_of_le_of_lt (le_digitsValueFrom _ rest) hroom
    have hfull : (afterPoint && decide (28 ≤ scale)) = false := by
      cases afterPoint with
      | false => rfl
      | true =>
        simp only [if_true, List.length_cons] at hplaces
        simp only [Bool.true_and, decide_eq_false_iff_not]
        omega
    rw [List.cons_append, readDigits?]
    simp only [hfull, Bool.false_eq_true, if_false, hc, if_true, hmantissa]
    rw [ih (fun d hd => hdigits d (List.mem_cons_of_mem _ hd)) hroom]
    · cases afterPoint with
      | false => simp
      | true => simp [Nat.add_assoc, Nat.add_comm 1]
    · cases afterPoint with
      | false => rfl
      | true =>
        simp only [if_true, List.length_cons] at hplaces ⊢
        omega

theorem exists_digits (d : Decimal) : ∃ whole fraction : List Char,
    whole ≠ [] ∧ fraction.length = d.scale ∧
      (∀ c ∈ whole ++ fraction, isDigit c = true) ∧
      digitsValue (whole ++ fraction) = d.magnitude ∧
      d.toChars = (if d.negative then ['-'] else []) ++
        (whole ++ if fraction.isEmpty then [] else '.' :: fraction) := by
  have hlength : d.scale + 1 ≤ (paddedChars (d.scale + 1) d.magnitude).length :=
    le_length_paddedChars _ _
  refine ⟨(paddedChars (d.scale + 1) d.magnitude).take
      ((paddedChars (d.scale + 1) d.magnitude).length - d.scale),
    (paddedChars (d.scale + 1) d.magnitude).drop
      ((paddedChars (d.scale + 1) d.magnitude).length - d.scale), ?_, ?_, ?_, ?_, ?_⟩
  · apply List.ne_nil_of_length_pos
    rw [List.length_take]
    omega
  · rw [List.length_drop]
    omega
  · rw [List.take_append_drop]
    exact fun c => isDigit_of_mem_paddedChars
  · rw [List.take_append_drop, digitsValue_paddedChars]
  · unfold toChars
    dsimp only
    split <;> split <;> simp_all

theorem not_isBlank_of_mem_toChars {d : Decimal} {c : Char} (h : c ∈ d.toChars) :
    isBlank c = false := by
  obtain ⟨whole, fraction, -, -, hdigits, -, hchars⟩ := exists_digits d
  rw [hchars] at h
  have hcases : c = '-' ∨ c = '.' ∨ c ∈ whole ++ fraction := by
    rcases List.mem_append.mp h with hsign | hdigit
    · split at hsign
      · exact Or.inl (List.mem_singleton.mp hsign)
      · contradiction
    · rcases List.mem_append.mp hdigit with hwhole | hfraction
      · exact Or.inr (Or.inr (List.mem_append_left _ hwhole))
      · split at hfraction
        · contradiction
        · rcases List.mem_cons.mp hfraction with hpoint | hfraction
          · exact Or.inr (Or.inl hpoint)
          · exact Or.inr (Or.inr (List.mem_append_right _ hfraction))
  rcases hcases with rfl | rfl | hdigit
  · decide
  · decide
  · exact not_isBlank_of_isDigit (hdigits c hdigit)

theorem readUnsigned?_digits {whole fraction : List Char} (hwhole : whole ≠ [])
    (hdigits : ∀ c ∈ whole ++ fraction, isDigit c = true) (hplaces : fraction.length ≤ 28)
    (hroom : digitsValue (whole ++ fraction) < limit96) :
    readUnsigned? (whole ++ if fraction.isEmpty then [] else '.' :: fraction) =
      some (digitsValue (whole ++ fraction), fraction.length) := by
  have hvalue : digitsValue (whole ++ fraction) =
      digitsValueFrom (digitsValue whole) fraction := digitsValueFrom_append 0 whole fraction
  have hfront : digitsValue whole < limit96 := by
    have := le_digitsValueFrom (digitsValue whole) fraction
    omega
  have hsome : (!whole.isEmpty) = true := by simpa using hwhole
  have hread := @readDigits?_append 0 0 false false whole
    (if fraction.isEmpty then [] else '.' :: fraction)
    (fun c hc => hdigits c (List.mem_append_left _ hc)) hfront rfl
  rw [readUnsigned?, hread, Bool.false_or, hsome]
  cases hfraction : fraction with
  | nil =>
    rw [List.append_nil]
    rfl
  | cons c rest =>
    rw [← hfraction]
    have hempty : fraction.isEmpty = false := by rw [hfraction]; rfl
    have hpoint : readDigits? ⟨digitsValue whole, 0, false, true⟩ ('.' :: fraction) =
        readDigits? ⟨digitsValue whole, 0, true, true⟩ (fraction ++ []) := by
      rw [List.append_nil]
      rfl
    rw [hempty, if_neg Bool.false_ne_true]
    rw [hvalue] at hroom ⊢
    have hbehind := @readDigits?_append (digitsValue whole) 0 true true fraction []
      (fun c hc => hdigits c (List.mem_append_right _ hc)) hroom (by simpa using hplaces)
    refine (congrArg _ (hpoint.trans hbehind)).trans ?_
    simp [readDigits?]

theorem readPlain?_of_digit {c : Char} {rest : List Char} (hc : isDigit c = true) :
    readPlain? (c :: rest) = (readUnsigned? (c :: rest)).bind fun number =>
      ofParts? number.1 number.2 := by
  unfold readPlain?
  split
  · rename_i heq
    rw [(List.cons.inj heq).1] at hc
    exact absurd hc (by decide)
  · rename_i heq
    rw [(List.cons.inj heq).1] at hc
    exact absurd hc (by decide)
  · rfl

theorem read?_toChars (d : Decimal) :
    ∃ found, read? d.toChars = some found ∧ found.mantissa = d.mantissa ∧
      found.scale = d.scale := by
  obtain ⟨whole, fraction, hwhole, hscale, hdigits, hvalue, hchars⟩ := exists_digits d
  have hunsigned := readUnsigned?_digits hwhole hdigits (by rw [hscale]; exact d.scale_le)
    (by rw [hvalue]; exact d.bounded)
  rw [hvalue, hscale] at hunsigned
  have hplain : readPlain? d.toChars = ofParts? d.mantissa d.scale := by
    rw [hchars, mantissa]
    cases hnegative : d.negative with
    | true =>
      rw [if_pos rfl, if_pos rfl, List.singleton_append, readPlain?]
      simp only [hunsigned, Option.bind_eq_bind, Option.bind_some]
    | false =>
      obtain ⟨c, rest, rfl⟩ := List.exists_cons_of_ne_nil hwhole
      have hc : isDigit c = true := hdigits c (by simp)
      rw [List.cons_append] at hunsigned
      rw [if_neg Bool.false_ne_true, if_neg Bool.false_ne_true, List.nil_append, List.cons_append,
        readPlain?_of_digit hc, hunsigned, Option.bind_some]
  obtain ⟨found, hfound, hsame⟩ := mantissa_of_ofParts?
    (by rw [natAbs_mantissa]; exact d.bounded) d.scale_le
  exact ⟨found, by rw [read?, hplain, hfound]; rfl, hsame⟩

theorem trimChars_text (d : Decimal) : trimChars d.text.toList = d.toChars := by
  rw [text, String.toList_ofList, trimChars_of_not_isBlank]
  exact fun c => not_isBlank_of_mem_toChars

theorem paddedChars_one (n : Nat) : paddedChars 1 n = natChars n := by
  have hlength : 0 < (natChars n).length := List.length_pos_iff.mpr (natChars_ne_nil n)
  have hnone : 1 - (natChars n).length = 0 := by omega
  rw [paddedChars]
  simp only [hnone, List.replicate_zero, List.nil_append]

theorem toChars_of_scale_eq_zero {d : Decimal} (h : d.scale = 0) :
    d.toChars = if d.negative then '-' :: natChars d.magnitude else natChars d.magnitude := by
  unfold toChars
  simp only [h, Nat.zero_add, paddedChars_one, Nat.sub_zero, List.take_length, List.drop_length,
    List.isEmpty_nil, if_true]

theorem readInt?_toChars {d : Decimal} (h : d.scale = 0) :
    readInt? d.toChars = some d.mantissa := by
  rw [toChars_of_scale_eq_zero h, mantissa]
  split
  · exact readInt?_minus _
  · exact readInt?_natChars _

theorem toChars_ofInt64 (n : Int64) : (ofInt64 n).toChars = intChars n.toInt := by
  rw [toChars_of_scale_eq_zero rfl]
  change (if decide (n.toInt < 0) then '-' :: natChars n.toInt.natAbs
    else natChars n.toInt.natAbs) = intChars n.toInt
  generalize n.toInt = m
  cases m with
  | ofNat k =>
    rw [if_neg (by simp)]
    rfl
  | negSucc k =>
    rw [if_pos (by simp [Int.negSucc_lt_zero])]
    rfl

end Decimal

end RecordQuery
