import Mathlib.Data.List.TakeWhile
import RecordQuery.Calendar.Reader
import RecordQuery.Proofs.Calendar.DayNumber
import RecordQuery.Proofs.Text.Numerals

namespace RecordQuery

open Text

theorem Date.of_mem_toChars {date : Date} {c : Char} (h : c ∈ date.toChars) :
    isDigit c = true ∨ c = '-' ∨ c = '+' := by
  have hyear : c ∈ Date.yearChars date.year → isDigit c = true ∨ c = '-' ∨ c = '+' := by
    intro hmem
    unfold Date.yearChars at hmem
    split at hmem
    · exact .inl (isDigit_of_mem_paddedChars hmem)
    · rcases List.mem_cons.mp hmem with rfl | hmem
      · split <;> simp
      · exact .inl (isDigit_of_mem_paddedChars hmem)
  have hpart : ∀ {n : Nat}, c ∈ '-' :: paddedChars 2 n → isDigit c = true ∨ c = '-' ∨ c = '+' := by
    intro n hmem
    rcases List.mem_cons.mp hmem with rfl | hmem
    · simp
    · exact .inl (isDigit_of_mem_paddedChars hmem)
  simp only [Date.toChars, List.mem_append] at h
  rcases h with (h | h) | h
  · exact hyear h
  · exact hpart h
  · exact hpart h

theorem Date.not_isBlank_of_mem_toChars {date : Date} {c : Char} (h : c ∈ date.toChars) :
    isBlank c = false := by
  rcases Date.of_mem_toChars h with hdigit | rfl | rfl
  · exact not_isBlank_of_isDigit hdigit
  · decide
  · decide

namespace Calendar

theorem takeNumber?_digits {least most : Nat} {digits behind : List Char}
    (hdigits : ∀ c ∈ digits, isDigit c = true) (hleast : least ≤ digits.length)
    (hmost : digits.length ≤ most)
    (hend : digits.length = most ∨ ∀ c ∈ behind.head?, isDigit c = false) :
    takeNumber? least most (digits ++ behind) = some ((digitsValue digits : Int), behind) := by
  have hrest : (behind.take (most - digits.length)).takeWhile isDigit = [] := by
    rcases hend with hfull | hstop
    · rw [hfull, Nat.sub_self, List.take_zero, List.takeWhile_nil]
    · cases behind with
      | nil => rw [List.take_nil, List.takeWhile_nil]
      | cons c rest =>
        have hc : isDigit c = false := hstop c rfl
        cases most - digits.length with
        | zero => rfl
        | succ room =>
          rw [List.take_succ_cons, List.takeWhile_cons_of_neg (by simp [hc])]
  have htaken : ((digits ++ behind).take most).takeWhile isDigit = digits := by
    rw [List.take_append, List.take_of_length_le hmost, List.takeWhile_append_of_pos hdigits, hrest,
      List.append_nil]
  rw [takeNumber?, takeDigits?, htaken]
  dsimp only
  rw [if_neg (by omega), Option.map_some, List.drop_left]

theorem takeNumber?_paddedChars {width n : Nat} (behind : List Char) (hwidth : 0 < width)
    (h : n < 10 ^ width) :
    takeNumber? width width (paddedChars width n ++ behind) = some ((n : Int), behind) := by
  have hlength := length_paddedChars hwidth h
  rw [takeNumber?_digits (fun c => isDigit_of_mem_paddedChars) hlength.ge hlength.le (.inl hlength),
    digitsValue_paddedChars]

theorem takeLoose?_paddedChars {unit : TimeUnit} {width n : Nat} (behind : List Char)
    (hwidth : unit.width = width) (h : n < 10 ^ width) :
    takeLoose? unit (paddedChars width n ++ behind) = some ((n : Int), behind) := by
  subst hwidth
  have hpos : 0 < unit.width := by cases unit <;> decide
  have hlength := length_paddedChars hpos h
  obtain ⟨c, rest, hchars⟩ := List.exists_cons_of_length_pos (hlength ▸ hpos)
  have hc : isDigit c = true :=
    isDigit_of_mem_paddedChars (hchars ▸ List.mem_cons_self)
  have hsign : ∀ {sign : Char}, isDigit sign = false → c ≠ sign := by
    rintro sign hsign rfl
    rw [hc] at hsign
    contradiction
  have htrim : trimLeft (paddedChars unit.width n ++ behind) =
      paddedChars unit.width n ++ behind := by
    rw [hchars, List.cons_append, trimLeft,
      List.dropWhile_cons_of_neg (by simp [not_isBlank_of_isDigit hc])]
  have hread : takeNumber? 1 unit.width (paddedChars unit.width n ++ behind) =
      some ((n : Int), behind) := by
    rw [takeNumber?_digits (fun c => isDigit_of_mem_paddedChars) (by omega) hlength.le
      (.inl hlength), digitsValue_paddedChars]
  unfold takeLoose?
  rw [htrim]
  split
  · rename_i heq
    rw [hchars] at heq
    exact absurd (List.cons.inj heq).1 (hsign (by decide))
  · rename_i heq
    rw [hchars] at heq
    exact absurd (List.cons.inj heq).1 (hsign (by decide))
  · exact hread

theorem takeNumber?_signed (n : Nat) (behind : List Char) :
    takeNumber? 1 (paddedChars 4 n ++ '-' :: behind).length (paddedChars 4 n ++ '-' :: behind) =
      some ((n : Int), '-' :: behind) := by
  have hlength := le_length_paddedChars 4 n
  have hstop : ∀ c ∈ ('-' :: behind).head?, isDigit c = false := by
    rintro c ⟨⟩
    decide
  rw [takeNumber?_digits (fun c => isDigit_of_mem_paddedChars) (by omega)
    (by rw [List.length_append]; omega) (.inr hstop), digitsValue_paddedChars]

theorem takeLoose?_minus (rest : List Char) :
    takeLoose? .year ('-' :: rest) =
      (takeNumber? 1 rest.length rest).map fun (value, after) => (-value, after) :=
  rfl

theorem takeLoose?_plus (rest : List Char) :
    takeLoose? .year ('+' :: rest) = takeNumber? 1 rest.length rest :=
  rfl

theorem takeLoose?_yearChars (year : Int) (behind : List Char) :
    takeLoose? .year (Date.yearChars year ++ '-' :: behind) = some (year, '-' :: behind) := by
  unfold Date.yearChars
  split
  case isTrue h =>
    have hnat : (year.toNat : Int) = year := Int.toNat_of_nonneg h.1
    have hread : takeLoose? .year (paddedChars 4 year.toNat ++ '-' :: behind) =
        some ((year.toNat : Int), '-' :: behind) := takeLoose?_paddedChars _ rfl (by omega)
    rwa [hnat] at hread
  case isFalse h =>
    split
    · have hnat : -(year.natAbs : Int) = year := by omega
      rw [List.cons_append, takeLoose?_minus, takeNumber?_signed, Option.map_some]
      dsimp only
      rw [hnat]
    · have hnat : (year.natAbs : Int) = year := by omega
      rw [List.cons_append, takeLoose?_plus, takeNumber?_signed, hnat]

def dateParts (date : Date) : Parts :=
  { Parts.empty with year := date.year, month := date.month, day := date.day }

theorem takeForm?_toChars (date : Date) :
    takeForm? .empty dateForm date.toChars = some (dateParts date, []) := by
  have hmonth := date.valid.last_month
  have hday : date.day ≤ 31 := date.valid.last_day.trans (Date.monthLength_bounds _ _).2
  have hmonthRead : ∀ behind, takeLoose? .month (paddedChars 2 date.month ++ behind) =
      some ((date.month : Int), behind) :=
    fun behind => takeLoose?_paddedChars behind rfl (by omega)
  have hdayRead : takeLoose? .day (paddedChars 2 date.day) = some ((date.day : Int), []) := by
    rw [← List.append_nil (paddedChars 2 date.day)]
    exact takeLoose?_paddedChars [] rfl (by omega)
  simp only [Date.toChars, dateForm, takeForm?, List.append_assoc, List.cons_append,
    takeLoose?_yearChars, Option.bind_some, List.contains_cons, BEq.rfl, Bool.true_or, if_true,
    hmonthRead, hdayRead, Parts.set, Int.toNat_natCast, dateParts, Parts.empty]

theorem toInstant?_dateParts (date : Date) : (dateParts date).toInstant? = some (.midnight date) := by
  have hdate : Date.ofParts? (dateParts date).year (dateParts date).month (dateParts date).day =
      some date := Date.ofParts?_eq_some date.valid
  rw [Parts.toInstant?, hdate]
  rfl

theorem takeNumber?_suffix {least most : Nat} {text rest : List Char} {value : Int}
    (h : takeNumber? least most text = some (value, rest)) : rest <:+ text := by
  unfold takeNumber? takeDigits? at h
  dsimp only at h
  split at h
  · contradiction
  · obtain ⟨-, rfl⟩ := Prod.mk.inj (Option.some.inj h)
    exact List.drop_suffix _ _

theorem takeLoose?_suffix {unit : TimeUnit} {text rest : List Char} {value : Int}
    (h : takeLoose? unit text = some (value, rest)) : rest <:+ text := by
  have htrim : trimLeft text <:+ text := List.dropWhile_suffix _
  unfold takeLoose? at h
  split at h
  · rename_i signed heq
    obtain ⟨⟨n, after⟩, hread, hpair⟩ := Option.map_eq_some_iff.mp h
    obtain ⟨-, rfl⟩ := Prod.mk.inj hpair
    have hsigned : signed <:+ trimLeft text := heq ▸ List.suffix_cons '-' signed
    exact (takeNumber?_suffix hread).trans (hsigned.trans htrim)
  · rename_i signed heq
    have hsigned : signed <:+ trimLeft text := heq ▸ List.suffix_cons '+' signed
    exact (takeNumber?_suffix h).trans (hsigned.trans htrim)
  · exact (takeNumber?_suffix h).trans htrim

theorem takeFraction?_suffix {text rest : List Char} {nano : Nat}
    (h : takeFraction? text = some (nano, rest)) : rest <:+ text := by
  unfold takeFraction? at h
  split at h
  · dsimp only at h
    split at h
    · contradiction
    · obtain ⟨-, rfl⟩ := Prod.mk.inj (Option.some.inj h)
      exact (List.drop_suffix _ _).trans (List.suffix_cons _ _)
  · obtain ⟨-, rfl⟩ := Prod.mk.inj (Option.some.inj h)
    exact List.suffix_refl _

theorem takeForm?_eq_none {parts : Parts} {form : List Field} {chars text : List Char}
    (hform : .oneOf chars ∈ form) (htext : ∀ c ∈ chars, c ∉ text) :
    takeForm? parts form text = none := by
  induction form generalizing parts text with
  | nil => contradiction
  | cons field form ih =>
    have hrest : ∀ {parts : Parts} {rest : List Char}, .oneOf chars ∈ form → rest <:+ text →
        takeForm? parts form rest = none :=
      fun hform hsuffix => ih hform fun c hc hmem => htext c hc (hsuffix.subset hmem)
    cases field with
    | strict unit =>
      have hform := (List.mem_cons.mp hform).resolve_left (by simp)
      rw [takeForm?, Option.bind_eq_none_iff]
      exact fun taken htaken => hrest hform (takeNumber?_suffix htaken)
    | loose unit =>
      have hform := (List.mem_cons.mp hform).resolve_left (by simp)
      rw [takeForm?, Option.bind_eq_none_iff]
      exact fun taken htaken => hrest hform (takeLoose?_suffix htaken)
    | fraction =>
      have hform := (List.mem_cons.mp hform).resolve_left (by simp)
      rw [takeForm?, Option.bind_eq_none_iff]
      exact fun taken htaken => hrest hform (takeFraction?_suffix htaken)
    | blanks =>
      have hform := (List.mem_cons.mp hform).resolve_left (by simp)
      exact hrest hform (List.dropWhile_suffix _)
    | oneOf asked =>
      cases text with
      | nil => rfl
      | cons c rest =>
        rw [takeForm?]
        split
        · rename_i hc
          rcases List.mem_cons.mp hform with heq | hform
          · obtain rfl := Field.oneOf.inj heq
            exact absurd List.mem_cons_self (htext c (List.contains_iff_mem.mp hc))
          · exact hrest hform (List.suffix_cons c rest)
        · rfl

theorem readForm?_eq_none {form : List Field} {chars text : List Char}
    (hform : .oneOf chars ∈ form) (htext : ∀ c ∈ chars, c ∉ text) :
    readForm? form text = none := by
  rw [readForm?, takeForm?_eq_none hform htext, Option.bind_none]

theorem readChars?_toChars (date : Date) : readChars? date.toChars = some (.midnight date) := by
  have hcolon : ∀ c ∈ [':'], c ∉ date.toChars := by
    rintro c hc hmem
    obtain rfl := List.mem_singleton.mp hc
    rcases Date.of_mem_toChars hmem with h | h | h <;> exact absurd h (by decide)
  have hslash : ∀ c ∈ ['/'], c ∉ date.toChars := by
    rintro c hc hmem
    obtain rfl := List.mem_singleton.mp hc
    rcases Date.of_mem_toChars hmem with h | h | h <;> exact absurd h (by decide)
  have hinternet : readInternet? date.toChars = none := by
    rw [readInternet?, takeForm?_eq_none (by decide) hcolon]
    rfl
  have hdate : readForm? dateForm date.toChars = some (.midnight date) := by
    rw [readForm?, takeForm?_toChars, Option.bind_some]
    exact toInstant?_dateParts date
  rw [readChars?, hinternet, Option.orElse_none]
  simp only [looseForms, List.findSome?_cons]
  rw [readForm?_eq_none (by decide) hcolon, readForm?_eq_none (by decide) hcolon,
    readForm?_eq_none (by decide) hcolon, readForm?_eq_none (by decide) hcolon,
    readForm?_eq_none (by decide) hslash, hdate]

theorem readInstant?_text (date : Date) : readInstant? date.text = some (.midnight date) := by
  rw [readInstant?, Date.text, String.toList_ofList,
    trimChars_of_not_isBlank fun c => Date.not_isBlank_of_mem_toChars, readChars?_toChars]

end Calendar

end RecordQuery
