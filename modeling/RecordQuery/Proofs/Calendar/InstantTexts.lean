import RecordQuery.Proofs.Calendar.DateTexts

namespace RecordQuery

open Text

def Instant.isExpressible (t : Instant) : Bool :=
  decide (0 ≤ t.date.year ∧ t.date.year ≤ 9999 ∧ (t.nano < 1000000000 ∨ t.second % 60 = 59))

namespace Calendar

theorem takeForm?_strict {parts : Parts} {unit : TimeUnit} {form : List Field} {width n : Nat}
    {behind : List Char} (hwidth : unit.width = width) (h : n < 10 ^ width) :
    takeForm? parts (.strict unit :: form) (paddedChars width n ++ behind) =
      takeForm? (parts.set n unit) form behind := by
  have hpos : 0 < unit.width := by cases unit <;> decide
  rw [takeForm?, hwidth, takeNumber?_paddedChars behind (hwidth ▸ hpos) h, Option.bind_some]

theorem takeForm?_oneOf {parts : Parts} {chars : List Char} {form : List Field} {c : Char}
    {behind : List Char} (h : c ∈ chars) :
    takeForm? parts (.oneOf chars :: form) (c :: behind) = takeForm? parts form behind := by
  rw [takeForm?, if_pos (List.contains_iff_mem.mpr h)]

theorem takeFraction?_padded {places n : Nat} {mark : Char} {behind : List Char}
    (hplaces : 0 < places) (hle : places ≤ 9) (h : n < 10 ^ places) (hmark : isDigit mark = false) :
    takeFraction? ('.' :: paddedChars places n ++ mark :: behind) =
      some (n * powerOfTen (9 - places), mark :: behind) := by
  have hlength := length_paddedChars hplaces h
  have hdigits : (paddedChars places n ++ mark :: behind).takeWhile isDigit =
      paddedChars places n := by
    rw [List.takeWhile_append_of_pos fun c => isDigit_of_mem_paddedChars,
      List.takeWhile_cons_of_neg (by simp [hmark]), List.append_nil]
  have hsome : (paddedChars places n).isEmpty = false := by
    rw [List.isEmpty_eq_false_iff]
    exact List.ne_nil_of_length_pos (by omega)
  have hcounted : (paddedChars places n).take 9 = paddedChars places n :=
    List.take_of_length_le (by omega)
  rw [List.cons_append, takeFraction?]
  simp only [hdigits, hsome, hcounted, hlength, digitsValue_paddedChars, List.drop_left' hlength,
    Bool.false_eq_true, if_false]

theorem takeFraction?_fractionChars {nano : Nat} (h : nano < 1000000000) {mark : Char}
    {behind : List Char} (hmark : isDigit mark = false) (hpoint : mark ≠ '.') :
    takeFraction? (Instant.fractionChars nano ++ mark :: behind) = some (nano, mark :: behind) := by
  unfold Instant.fractionChars
  split
  · rename_i hzero
    rw [hzero, List.nil_append]
    unfold takeFraction?
    split
    · rename_i heq
      exact absurd (List.cons.inj heq).1 hpoint
    · rfl
  · split
    · rename_i hmilli
      rw [takeFraction?_padded (by decide) (by decide) (by omega) hmark]
      have hpower : powerOfTen (9 - 3) = 1000000 := by decide
      rw [hpower, Nat.div_mul_cancel (Nat.dvd_of_mod_eq_zero hmilli)]
    · split
      · rename_i hmicro
        rw [takeFraction?_padded (by decide) (by decide) (by omega) hmark]
        have hpower : powerOfTen (9 - 6) = 1000 := by decide
        rw [hpower, Nat.div_mul_cancel (Nat.dvd_of_mod_eq_zero hmicro)]
      · rw [takeFraction?_padded (by decide) (by decide) h hmark]
        have hpower : powerOfTen (9 - 9) = 1 := by decide
        rw [hpower, Nat.mul_one]

def partsOf (t : Instant) : Parts where
  year := t.date.year
  month := t.date.month
  day := t.date.day
  hour := t.second / 3600
  minute := t.second / 60 % 60
  second := t.second % 60 + t.nano / 1000000000
  nano := t.nano % 1000000000

theorem takeForm?_localChars {t : Instant} (hlow : 0 ≤ t.date.year) (hhigh : t.date.year ≤ 9999)
    {mark : Char} {behind : List Char} (hmark : isDigit mark = false) (hpoint : mark ≠ '.') :
    takeForm? .empty internetForm (t.localChars ++ mark :: behind) =
      some (partsOf t, mark :: behind) := by
  have hsecond := t.second_lt
  have hnano := t.nano_lt
  have hmonth := t.date.valid.last_month
  have hday : t.date.day ≤ 31 := t.date.valid.last_day.trans (Date.monthLength_bounds _ _).2
  have hyear : Date.yearChars t.date.year = paddedChars 4 t.date.year.toNat :=
    if_pos ⟨hlow, hhigh⟩
  have hnat : (t.date.year.toNat : Int) = t.date.year := Int.toNat_of_nonneg hlow
  have hnano' : t.nano % 1000000000 < 1000000000 := Nat.mod_lt _ (by decide)
  unfold Instant.localChars Date.toChars internetForm
  simp only [hyear, List.append_assoc, List.cons_append]
  rw [takeForm?_strict (show TimeUnit.year.width = 4 from rfl) (by omega),
    takeForm?_oneOf (by decide),
    takeForm?_strict (show TimeUnit.month.width = 2 from rfl) (by omega),
    takeForm?_oneOf (by decide),
    takeForm?_strict (show TimeUnit.day.width = 2 from rfl) (by omega),
    takeForm?_oneOf (by decide),
    takeForm?_strict (show TimeUnit.hour.width = 2 from rfl) (by omega),
    takeForm?_oneOf (by decide),
    takeForm?_strict (show TimeUnit.minute.width = 2 from rfl) (by omega),
    takeForm?_oneOf (by decide),
    takeForm?_strict (show TimeUnit.second.width = 2 from rfl) (by omega),
    takeForm?, takeFraction?_fractionChars hnano' hmark hpoint, Option.bind_some]
  simp only [takeForm?, Parts.set, Parts.empty, hnat, Int.toNat_natCast, partsOf]

theorem readOffset?_zero : readOffset? ['+', '0', '0', ':', '0', '0'] = some 0 := by
  decide

theorem toInstant?_partsOf {t : Instant}
    (hleap : t.nano < 1000000000 ∨ t.second % 60 = 59) : (partsOf t).toInstant? = some t := by
  have hsecond := t.second_lt
  have hnano := t.nano_lt
  have hdate : Date.ofParts? (partsOf t).year (partsOf t).month (partsOf t).day = some t.date :=
    Date.ofParts?_eq_some t.date.valid
  have hbounds : (partsOf t).hour < 24 ∧ (partsOf t).minute < 60 ∧ (partsOf t).second ≤ 60 := by
    simp only [partsOf]
    omega
  have hparts : ∀ {second nano : Nat}, second = t.second → nano = t.nano →
      Instant.ofParts? t.date second nano = some t := by
    rintro _ _ rfl rfl
    exact dif_pos ⟨hsecond, hnano⟩
  rw [Parts.toInstant?, hdate]
  simp only [Option.bind_eq_bind, Option.bind_some]
  rw [if_pos hbounds]
  by_cases hsixty : (partsOf t).second = 60
  · rw [if_pos hsixty]
    simp only [partsOf] at hsixty ⊢
    apply hparts <;> omega
  · rw [if_neg hsixty]
    simp only [partsOf] at hsixty ⊢
    apply hparts <;> omega

theorem readInternet?_text {t : Instant} (h : t.isExpressible = true) :
    readInternet? (t.localChars ++ ['+', '0', '0', ':', '0', '0']) = some t := by
  obtain ⟨hlow, hhigh, hleap⟩ := of_decide_eq_true h
  have hday : t.date.addDays? (t.second / 86400 : Int) = some t.date := by
    have hzero : (t.second / 86400 : Int) = 0 := by
      have := t.second_lt
      omega
    rw [hzero, Date.addDays?, Int.add_zero, Date.ofNumber?_number]
  have hsecond : ((t.second : Int) % 86400).toNat = t.second := by
    have := t.second_lt
    omega
  rw [readInternet?, takeForm?_localChars hlow hhigh (by decide) (by decide)]
  simp only [Option.bind_eq_bind, Option.bind_some, readOffset?_zero, toInstant?_partsOf hleap,
    Instant.ofSecond?, Int.sub_zero, hday, hsecond]
  exact dif_pos ⟨t.second_lt, t.nano_lt⟩

theorem not_isBlank_of_mem_localChars {t : Instant} {c : Char} (h : c ∈ t.localChars) :
    isBlank c = false := by
  have hpoint : ∀ {mark : Char} {width n : Nat}, isBlank mark = false →
      c ∈ mark :: paddedChars width n → isBlank c = false := by
    intro mark width n hmark hmem
    rcases List.mem_cons.mp hmem with rfl | hmem
    · exact hmark
    · exact not_isBlank_of_isDigit (isDigit_of_mem_paddedChars hmem)
  have hfraction : c ∈ Instant.fractionChars (t.nano % 1000000000) → isBlank c = false := by
    intro hmem
    unfold Instant.fractionChars at hmem
    split at hmem
    · contradiction
    · split at hmem
      · exact hpoint (by decide) hmem
      · split at hmem <;> exact hpoint (by decide) hmem
  simp only [Instant.localChars, List.mem_append] at h
  rcases h with (((h | h) | h) | h) | h
  · exact Date.not_isBlank_of_mem_toChars h
  · exact hpoint (by decide) h
  · exact hpoint (by decide) h
  · exact hpoint (by decide) h
  · exact hfraction h

theorem readChars?_text {t : Instant} (h : t.isExpressible = true) :
    readChars? (trimChars t.text.toList) = some t := by
  rw [Instant.text, String.toList_ofList, trimChars_of_not_isBlank, readChars?,
    readInternet?_text h]
  · rfl
  · intro c hc
    rcases List.mem_append.mp hc with hc | hc
    · exact not_isBlank_of_mem_localChars hc
    · have hend : ['+', '0', '0', ':', '0', '0'].all (fun c => !isBlank c) = true := by decide
      simpa using List.all_eq_true.mp hend c hc

end Calendar

end RecordQuery
