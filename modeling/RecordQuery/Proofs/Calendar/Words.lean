import RecordQuery.Proofs.Calendar.FiscalPeriods
import RecordQuery.Proofs.Outcome

/-!
The arithmetic of fiscal years in words of a fixed width, where a number that does not fit into its
word stops the computation. With settings that pass their check, and in years that the calendar
holds, every number fits, and the results are those of the numbers without a width.
-/

namespace RecordQuery

inductive Word where
  | int32
  | nat32
  | int64
  | nat64

namespace Word

def least : Word → Int
  | int32 => -signedLimit32
  | int64 => -signedLimit64
  | nat32 | nat64 => 0

def limit : Word → Int
  | int32 => signedLimit32
  | nat32 => limit32
  | int64 => signedLimit64
  | nat64 => limit64

def Fits (word : Word) (n : Int) : Prop := word.least ≤ n ∧ n < word.limit

instance (word : Word) (n : Int) : Decidable (word.Fits n) := inferInstanceAs (Decidable (_ ∧ _))

/-- The number, as long as it fits into the word. -/
def hold (word : Word) (n : Int) : Except Error Int :=
  if word.Fits n then .ok n else .error .overflow

theorem hold_eq {word : Word} {n : Int} (h : word.Fits n) : word.hold n = .ok n := if_pos h

theorem int32_fits_iff {n : Int} : int32.Fits n ↔ -2147483648 ≤ n ∧ n < 2147483648 := Iff.rfl

theorem int64_fits_iff {n : Int} :
    int64.Fits n ↔ -9223372036854775808 ≤ n ∧ n < 9223372036854775808 := Iff.rfl

theorem hold_small (word : Word) {n : Nat} (h : n < 10000) : word.hold n = .ok (n : Int) := by
  apply hold_eq
  cases word <;>
  · unfold Fits least limit
    dsimp only [signedLimit32, limit32, signedLimit64, limit64]
    omega

end Word

def Date.clampedInWords (year : Int) (month day : Nat) : Except Error Date := do
  let _ ← if month = 12 then Word.int32.hold (year + 1) else Word.nat32.hold (month + 1)
  return clamped year month day

theorem Date.clampedInWords_eq {year : Int} {month : Nat} (hlow : -262144 ≤ year)
    (hhigh : year ≤ 262142) (hmonth : month ≤ 12) (day : Nat) :
    clampedInWords year month day = .ok (clamped year month day) := by
  have hyear : Word.int32.hold (year + 1) = .ok (year + 1) :=
    Word.hold_eq (Word.int32_fits_iff.mpr ⟨by omega, by omega⟩)
  have hnext : Word.nat32.hold (month + 1) = .ok (month + 1 : Int) :=
    Word.hold_small _ (show month + 1 < 10000 by omega)
  rw [clampedInWords, hyear, hnext]
  split <;> rfl

namespace FiscalSettings

def yearStartInWords (settings : FiscalSettings) (year : Int) : Except Error Date :=
  Date.clampedInWords year settings.startMonth settings.startDay

def yearOfInWords (settings : FiscalSettings) (date : Date) : Except Error Int := do
  if (← settings.yearStartInWords date.year) ≤ date then return date.year
  else Word.int32.hold (date.year - 1)

def yearBoundsInWords (settings : FiscalSettings) (year : Int) : Except Error (Date × Date) := do
  return (← settings.yearStartInWords year,
    (← settings.yearStartInWords (nextYear year)).previous)

def periodBoundsInWords (settings : FiscalSettings) (year : Int) (period : Nat) :
    Except Error (Date × Date) :=
  if period = 0 ∨ settings.periods < period then
    .error (.operand (.noSuchPeriod settings.periods period))
  else do
    let start ← settings.yearStartInWords year
    let before ← Word.nat32.hold (period - 1)
    match settings.template.monthsPerPeriod? with
    | some months =>
      let first ← Word.nat32.hold (before * months)
      let behind ← Word.nat32.hold (period * months)
      return (start.addMonths first, (start.addMonths behind).previous)
    | none =>
      let days ← Word.nat64.hold (28 * before)
      match start.addDays? days with
      | none => .error (.operand (.fiscalYearBeyondCalendar year))
      | some first =>
        if period = settings.periods then
          return (first, (← settings.yearStartInWords (nextYear year)).previous)
        else
          match first.addDays? 27 with
          | none => .error (.operand (.fiscalYearBeyondCalendar year))
          | some last => return (first, last)

def climbPeriods (start date : Date) (months : Nat) : (remaining period : Nat) → Except Error Nat
  | 0, period => return period
  | remaining + 1, period => do
    if start.addMonths (← Word.nat32.hold (period * months)) ≤ date then
      climbPeriods start date months remaining (← Word.nat32.hold (period + 1)).toNat
    else
      return period

def periodOfInWords (settings : FiscalSettings) (date : Date) : Except Error (Int × Nat) := do
  let year ← settings.yearOfInWords date
  let start ← settings.yearStartInWords year
  match settings.template.monthsPerPeriod? with
  | some months => return (year, ← climbPeriods start date months (settings.periods - 1) 1)
  | none =>
    let begun ← Word.int64.hold ((date.number - start.number).tdiv 28 + 1)
    return (year, (max 1 (min begun settings.periods)).toNat)

def offsetPeriodInWords (settings : FiscalSettings) (year : Int) (period : Nat) (delta : Int) :
    Except Error (Option (Int × Nat)) := do
  let before ← Word.int64.hold (year * settings.periods)
  let behind ← Word.int64.hold (before + period)
  let index ← Word.int64.hold (behind - 1)
  if ¬ Word.int64.Fits (index + delta) then return none
  let newYear := (index + delta) / settings.periods
  if ¬ Word.int32.Fits newYear then return none
  let newPeriod ← Word.int64.hold ((index + delta) % settings.periods + 1)
  return some (newYear, newPeriod.toNat)

variable {settings : FiscalSettings} {year : Int}

theorem periods_le (settings : FiscalSettings) : settings.periods ≤ 13 := by
  unfold periods
  cases settings.template <;> decide

theorem yearStartInWords_eq (valid : settings.validate = .ok ()) (hlow : -262144 ≤ year)
    (hhigh : year ≤ 262142) : settings.yearStartInWords year = .ok (settings.yearStart year) :=
  Date.clampedInWords_eq hlow hhigh (validate_spec valid).2.1 settings.startDay

theorem yearOf_bounds (settings : FiscalSettings) (date : Date) :
    -262144 ≤ settings.yearOf date ∧ settings.yearOf date ≤ 262142 := by
  have hfirst := date.valid.first_year
  have hlast := date.valid.last_year
  unfold yearOf
  split <;> omega

theorem yearOfInWords_eq (valid : settings.validate = .ok ()) (date : Date) :
    settings.yearOfInWords date = settings.yearOf? date := by
  have hfirst := date.valid.first_year
  have hlast := date.valid.last_year
  have hbefore : Word.int32.hold (date.year - 1) = .ok (date.year - 1) :=
    Word.hold_eq (Word.int32_fits_iff.mpr ⟨by omega, by omega⟩)
  rw [yearOf?, guarded_eq valid (by simpa using hlast), yearOfInWords,
    yearStartInWords_eq valid (by omega) hlast, ok_bind, hbefore, yearOf]
  split <;> rfl

theorem yearBoundsInWords_eq (valid : settings.validate = .ok ())
    (held : settings.containsYear year = true) :
    settings.yearBoundsInWords year = settings.yearBounds? year := by
  obtain ⟨hfirst, hlast⟩ := containsYear_spec held
  have hnext : nextYear year = year + 1 := min_eq_left (by unfold signedLimit32; omega)
  rw [yearBoundsInWords, yearBounds?, guarded_eq valid (by simp [hnext]; omega),
    yearStartInWords_eq valid (by omega) (by omega),
    yearStartInWords_eq valid (by omega) (by omega)]
  rfl

theorem periodBounds?_eq_periodBounds (valid : settings.validate = .ok ())
    (held : settings.containsYear year = true) (period : Nat) :
    settings.periodBounds? year period = settings.periodBounds year period := by
  obtain ⟨-, hlast⟩ := containsYear_spec held
  cases h : settings.periodBounds year period with
  | ok bounds => exact periodBounds?_eq valid (by omega) h
  | error fault => rw [periodBounds?, h]; rfl

theorem periodBoundsInWords_eq (valid : settings.validate = .ok ())
    (held : settings.containsYear year = true) (period : Nat) :
    settings.periodBoundsInWords year period = settings.periodBounds? year period := by
  obtain ⟨hfirst, hlast⟩ := containsYear_spec held
  have hperiods := settings.periods_le
  have hnext : nextYear year = year + 1 := min_eq_left (by unfold signedLimit32; omega)
  rw [periodBounds?_eq_periodBounds valid held, periodBounds, periodBoundsInWords]
  split
  · rfl
  · have hbefore : Word.nat32.hold ((period : Int) - 1) = .ok ((period - 1 : Nat) : Int) := by
      rw [show (period : Int) - 1 = (period - 1 : Nat) by omega]
      exact Word.hold_small _ (by omega)
    rw [yearStartInWords_eq valid (by omega) (by omega), ok_bind, hbefore, ok_bind]
    cases hmonths : settings.template.monthsPerPeriod? with
    | some months =>
      have hproduct := periods_mul_months hmonths
      have hle : period * months ≤ 12 := by
        rw [← hproduct]
        exact Nat.mul_le_mul_right months (by omega)
      have hle' : (period - 1) * months ≤ 12 :=
        (Nat.mul_le_mul_right months (Nat.sub_le period 1)).trans hle
      have hfirstMonth := Word.nat32.hold_small (show (period - 1) * months < 10000 by omega)
      have hbehind := Word.nat32.hold_small (show period * months < 10000 by omega)
      rw [Nat.cast_mul] at hfirstMonth hbehind
      dsimp only
      rw [hfirstMonth, ok_bind, hbehind, ok_bind, Nat.cast_mul, Nat.cast_mul]
      rfl
    | none =>
      have hdays := Word.nat64.hold_small (show 28 * (period - 1) < 10000 by omega)
      have hyear : yearStartInWords settings (nextYear year) =
          .ok (settings.yearStart (nextYear year)) :=
        yearStartInWords_eq valid (by omega) (by omega)
      rw [Nat.cast_mul] at hdays
      dsimp only
      rw [Nat.cast_ofNat] at hdays
      rw [hdays, ok_bind, hyear, Nat.cast_mul]
      cases (settings.yearStart year).addDays? ((28 : Nat) * ((period - 1 : Nat) : Int)) with
      | none => rfl
      | some first => rfl

theorem climbPeriods_eq {months : Nat} (hmonths : months ≤ 12) (start date : Date)
    (remaining period : Nat) (hle : period + remaining ≤ 13) :
    climbPeriods start date months remaining period =
      .ok (period + ((List.range' period remaining).takeWhile fun k =>
        decide (start.addMonths (k * months : Nat) ≤ date)).length) := by
  induction remaining generalizing period with
  | zero => rfl
  | succ remaining ih =>
    have hsmall : period * months ≤ 13 * 12 := Nat.mul_le_mul (by omega) hmonths
    have hend := Word.nat32.hold_small (show period * months < 10000 by omega)
    have hnext : Word.nat32.hold (period + 1) = .ok ((period + 1 : Nat) : Int) :=
      Word.hold_small _ (show period + 1 < 10000 by omega)
    rw [Nat.cast_mul] at hend
    rw [climbPeriods, hend, ok_bind, hnext, ok_bind, List.range'_succ, List.takeWhile_cons,
      Nat.cast_mul]
    by_cases hreached : start.addMonths (period * months) ≤ date
    · rw [if_pos hreached, if_pos (decide_eq_true hreached)]
      rw [Int.toNat_natCast, ih (period + 1) (by omega), List.length_cons, Nat.add_assoc,
        Nat.add_comm 1]
    · rw [if_neg hreached, if_neg (by simpa using hreached)]
      rfl

theorem periodOfInWords_eq (valid : settings.validate = .ok ()) (date : Date) :
    settings.periodOfInWords date = settings.periodOf? date := by
  have hperiods := settings.periods_le
  have hpos : 1 ≤ settings.periods := settings.template.periods_pos
  obtain ⟨hlow, hhigh⟩ := settings.yearOf_bounds date
  rw [periodOf?, guarded_eq valid (by simpa using date.valid.last_year), periodOfInWords,
    yearOfInWords_eq valid, yearOf?, guarded_eq valid (by simpa using date.valid.last_year),
    ok_bind, yearStartInWords_eq valid hlow hhigh, ok_bind, periodOf]
  cases hmonths : settings.template.monthsPerPeriod? with
  | some months =>
    have hproduct := periods_mul_months hmonths
    have hle : months ≤ 12 := by
      rw [← hproduct]
      exact Nat.le_mul_of_pos_left months hpos
    dsimp only
    rw [climbPeriods_eq hle _ _ _ _ (by omega), ok_bind, Nat.add_comm]
    rfl
  | none =>
    have hfirst := date.number_least_le
    have hlast := date.number_le_greatest
    have hfirst' := (settings.yearStart (settings.yearOf date)).number_least_le
    have hlast' := (settings.yearStart (settings.yearOf date)).number_le_greatest
    have hleast : Date.least.number = -95746129 := by decide
    have hgreatest : Date.greatest.number = 95745399 := by decide
    dsimp only
    generalize hdays : date.number - (settings.yearStart (settings.yearOf date)).number = days
    have hquotient : -100000000 ≤ days.tdiv 28 ∧ days.tdiv 28 ≤ 100000000 ∧
        max 1 (min (days.tdiv 28 + 1) settings.periods) =
          ((max 1 (min (days.toNat / 28 + 1) settings.periods) : Nat) : Int) := by
      have hsign : Int.sign 28 = 1 := rfl
      rw [Int.tdiv_eq_ediv, hsign]
      split <;> omega
    rw [Word.hold_eq (Word.int64_fits_iff.mpr ⟨by omega, by omega⟩), ok_bind, hquotient.2.2,
      Int.toNat_natCast]
    rfl

theorem periodOf_bounds (settings : FiscalSettings) (date : Date) :
    (settings.periodOf date).1 = settings.yearOf date ∧ (settings.periodOf date).2 ≤ 13 := by
  have hpos : 1 ≤ settings.periods := settings.template.periods_pos
  have hperiods := settings.periods_le
  unfold periodOf
  split
  · rename_i months _
    have hpassed := (List.takeWhile_prefix (l := List.range' 1 (settings.periods - 1))
      fun period => decide ((settings.yearStart (settings.yearOf date)).addMonths
        (period * months : Nat) ≤ date)).length_le
    rw [List.length_range'] at hpassed
    exact ⟨rfl, by dsimp only; omega⟩
  · exact ⟨rfl, by dsimp only; omega⟩

theorem not_fitsInt32_of_index {index : Int} (h : ¬ Word.int64.Fits index) :
    ¬ FitsInt32 (index / settings.periods) := by
  have hpos : 1 ≤ settings.periods := settings.template.periods_pos
  have hperiods := settings.periods_le
  rw [Word.int64_fits_iff] at h
  rintro ⟨hlow, hhigh⟩
  rw [Int.le_ediv_iff_mul_le (by omega)] at hlow
  rw [Int.ediv_lt_iff_lt_mul (by omega)] at hhigh
  have hbound : signedLimit32 * settings.periods ≤ signedLimit32 * 13 :=
    Int.mul_le_mul_of_nonneg_left (by omega) (by decide)
  rw [Int.neg_mul] at hlow
  unfold signedLimit32 at *
  omega

theorem offsetPeriodInWords_eq (hlow : -2147483648 ≤ year) (hhigh : year < 2147483648)
    {period : Nat} (hperiod : period < limit32) (delta : Int) :
    settings.offsetPeriodInWords year period delta =
      .ok (settings.offsetPeriod? year period delta) := by
  have hpos : 1 ≤ settings.periods := settings.template.periods_pos
  have hperiods := settings.periods_le
  have hproduct : -2147483648 * 13 ≤ year * settings.periods ∧
      year * settings.periods ≤ 2147483648 * 13 := by
    constructor <;> nlinarith
  have hbefore : Word.int64.Fits (year * settings.periods) :=
    Word.int64_fits_iff.mpr ⟨by omega, by omega⟩
  have hbehind : Word.int64.Fits (year * settings.periods + period) :=
    Word.int64_fits_iff.mpr ⟨by omega, by unfold limit32 at hperiod; omega⟩
  have hindex : Word.int64.Fits (year * settings.periods + period - 1) :=
    Word.int64_fits_iff.mpr ⟨by omega, by unfold limit32 at hperiod; omega⟩
  rw [offsetPeriodInWords, Word.hold_eq hbefore, ok_bind, Word.hold_eq hbehind, ok_bind,
    Word.hold_eq hindex, ok_bind, offsetPeriod?]
  dsimp only
  generalize year * settings.periods + period - 1 + delta = index
  have hmod := Int.emod_nonneg index (show (settings.periods : Int) ≠ 0 by omega)
  have hlt := Int.emod_lt_of_pos index (show 0 < (settings.periods : Int) by omega)
  by_cases hfits : Word.int64.Fits index
  · by_cases hyear : FitsInt32 (index / settings.periods)
    · rw [if_neg (not_not.mpr hfits), if_neg (not_not.mpr (show Word.int32.Fits _ from hyear)),
        if_pos hyear, Word.hold_eq (Word.int64_fits_iff.mpr ⟨by omega, by omega⟩), ok_bind,
        Int.toNat_add hmod (by decide)]
      rfl
    · rw [if_neg (not_not.mpr hfits), if_pos (show ¬ Word.int32.Fits _ from hyear), if_neg hyear]
      rfl
  · rw [if_pos hfits, if_neg (not_fitsInt32_of_index hfits)]
    rfl

end FiscalSettings

end RecordQuery
