import RecordQuery.Proofs.Calendar.Words
import RecordQuery.Proofs.Predicate.CountedWindows

namespace RecordQuery

def SpanUnit.factor : SpanUnit → Nat
  | .weeks => 7
  | .years => 12
  | .hours | .days | .months => 1

namespace Condition

def checked (condition : Condition) (word : Word) (n : Int) : Except Error Int :=
  condition.inCalendar (if word.Fits n then some n else none)

def timeSpan? (seconds : Int) : Option Int :=
  if -9223372036854775 ≤ seconds ∧ seconds ≤ 9223372036854775 then some seconds else none

def shiftDaysInWords (condition : Condition) (date : Date) (days : Int) : Except Error Date :=
  condition.inCalendar ((timeSpan? (86400 * days)).bind fun _ => date.addDays? days)

def shiftMonthsInWords (condition : Condition) (date : Date) (months : Int) : Except Error Date :=
  condition.inCalendar (if months.natAbs < limit32 then date.addMonths? months else none)

def shiftSecondsInWords (condition : Condition) (t : Instant) (seconds : Int) :
    Except Error Instant :=
  condition.inCalendar ((timeSpan? seconds).bind t.addSeconds?)

def shiftInstantMonthsInWords (condition : Condition) (t : Instant) (months : Int) :
    Except Error Instant :=
  condition.inCalendar (if months.natAbs < limit32 then t.addMonths? months else none)

def moveInWords (direction : Direction) (count : Int) : Except Error Int :=
  match direction with
  | .last => Word.int64.hold (-count)
  | .next => .ok count

def countInWords (condition : Condition) (unit : SpanUnit) (n : Int) : Except Error Int :=
  match unit with
  | .weeks => condition.checked .int64 (7 * n)
  | .years => condition.checked .int64 (12 * n)
  | _ => .ok n

def moveDayInWords (condition : Condition) (today : Date) (unit : SpanUnit) (move : Int) :
    Except Error Date :=
  match unit with
  | .months | .years => condition.shiftMonthsInWords today move
  | _ => condition.shiftDaysInWords today move

def shiftDayInWords (condition : Condition) (today : Date) (direction : Direction)
    (unit : SpanUnit) (n : Int) : Except Error Date := do
  let count ← condition.countInWords unit n
  let move ← moveInWords direction count
  condition.moveDayInWords today unit move

def spanWindowInWords (condition : Condition) (present : Present) (today : Date)
    (direction : Direction) (unit : SpanUnit) (n : Int) : Except Error Condition := do
  let now := present.now
  match direction, unit with
  | .last, .hours =>
    let move ← moveInWords .last n
    return condition.betweenInstants (← condition.shiftSecondsInWords now (3600 * move)) now
  | .next, .hours =>
    return condition.betweenInstants now (← condition.shiftSecondsInWords now (3600 * n))
  | .last, unit =>
    let day ← condition.shiftDayInWords today .last unit n
    return condition.betweenInstants (.startOfDay day present.offset) now
  | .next, unit =>
    let day ← condition.shiftDayInWords today .next unit n
    return condition.betweenInstants now (.endOfDay day present.offset)

def cutoffInWords (condition : Condition) (now : Instant) (unit : AgeUnit) (n : Int) :
    Except Error Instant := do
  match unit with
  | .minutes => condition.shiftSecondsInWords now (60 * (← moveInWords .last n))
  | .span .hours => condition.shiftSecondsInWords now (3600 * (← moveInWords .last n))
  | .span .days => condition.shiftSecondsInWords now (86400 * (← moveInWords .last n))
  | .span .weeks => condition.shiftSecondsInWords now (604800 * (← moveInWords .last n))
  | .span .months => condition.shiftInstantMonthsInWords now (← moveInWords .last n)
  | .span .years =>
    let months ← condition.countInWords .years n
    condition.shiftInstantMonthsInWords now (← moveInWords .last months)

def calendarDaysInWords (condition : Condition) (today : Date) (turn : Turn) :
    CalendarUnit → Except Error (Date × Date)
  | .week => do
    let first ← condition.shiftDaysInWords today.weekStart (7 * turn.shift)
    return (first, ← condition.shiftDaysInWords first 6)
  | .month => do
    let moved ← condition.shiftMonthsInWords today turn.shift
    let first ← Date.clampedInWords moved.year moved.month 1
    return (first, (first.addMonths 1).previous)
  | .year => do
    let moved ← condition.shiftMonthsInWords today (12 * turn.shift)
    return (← Date.clampedInWords moved.year 1 1, ← Date.clampedInWords moved.year 12 31)

def fiscalYearBoundsInWords (condition : Condition) (fiscal : FiscalSettings) (year : Int) :
    Except Error (Date × Date) :=
  if fiscal.containsYear year then fiscal.yearBoundsInWords year
  else .error condition.beyondCalendar

def fiscalPeriodBoundsInWords (condition : Condition) (fiscal : FiscalSettings)
    (target : Int × Nat) : Except Error (Date × Date) :=
  if fiscal.containsYear target.1 then fiscal.periodBoundsInWords target.1 target.2
  else .error condition.beyondCalendar

def offsetPeriodInWords (condition : Condition) (fiscal : FiscalSettings) (start : Int × Nat)
    (delta : Int) : Except Error (Int × Nat) := do
  condition.inCalendar (← fiscal.offsetPeriodInWords start.1 start.2 delta)

def fiscalDaysInWords (condition : Condition) (fiscal : FiscalSettings) (today : Date)
    (turn : Turn) : FiscalUnit → Except Error (Date × Date)
  | .year => do
    let year ← condition.checked .int32 ((← fiscal.yearOfInWords today) + turn.shift)
    condition.fiscalYearBoundsInWords fiscal year
  | .period => do
    let target ← condition.offsetPeriodInWords fiscal (← fiscal.periodOfInWords today) turn.shift
    condition.fiscalPeriodBoundsInWords fiscal target

def fiscalSpanDaysInWords (condition : Condition) (fiscal : FiscalSettings) (today : Date)
    (direction : Direction) (n : Int) : FiscalUnit → Except Error (Date × Date)
  | .year => do
    let count ← condition.checked .int32 n
    let current ← fiscal.yearOfInWords today
    let first ← condition.checked .int32 (current + (spanEnds direction count).1)
    let last ← condition.checked .int32 (current + (spanEnds direction count).2)
    return ((← condition.fiscalYearBoundsInWords fiscal first).1,
      (← condition.fiscalYearBoundsInWords fiscal last).2)
  | .period => do
    let current ← fiscal.periodOfInWords today
    let firstShift ← Word.int64.hold (spanEnds direction n).1
    let firstTarget ← condition.offsetPeriodInWords fiscal current firstShift
    let lastTarget ← condition.offsetPeriodInWords fiscal current (spanEnds direction n).2
    return ((← condition.fiscalPeriodBoundsInWords fiscal firstTarget).1,
      (← condition.fiscalPeriodBoundsInWords fiscal lastTarget).2)

def windowInWords? (condition : Condition) (values : List Value) (present : Present) :
    Except Error (Option Condition) := do
  let today ← present.today
  let now := present.now
  let fiscal := present.fiscal
  let days (bounds : Date × Date) : Option Condition := some (condition.withinDays present bounds)
  match condition.operator with
  | .day .this => return some (condition.onDay today)
  | .day turn => return some (condition.onDay (← condition.shiftDaysInWords today turn.shift))
  | .sevenDays .last =>
    return some (condition.betweenInstants
      (← condition.shiftSecondsInWords now (86400 * -7)) now)
  | .sevenDays .next =>
    return some (condition.betweenInstants now
      (← condition.shiftSecondsInWords now (86400 * 7)))
  | .calendar turn unit => return days (← condition.calendarDaysInWords today turn unit)
  | .span direction unit =>
    let n ← condition.countOperand values 0
    return some (← condition.spanWindowInWords present today direction unit n)
  | .olderThan unit =>
    let n ← condition.countOperand values 1
    let cutoff ← condition.cutoffInWords now unit n
    return some (condition.derive (.compare .less) [.dateTime cutoff])
  | .fiscal turn unit => return days (← condition.fiscalDaysInWords fiscal today turn unit)
  | .fiscalSpan direction unit =>
    let n ← condition.countOperand values 1
    return days (← condition.fiscalSpanDaysInWords fiscal today direction n unit)
  | .inFiscalYear =>
    let year ← condition.fiscalYearOperand values.head?
    return days (← condition.fiscalYearBoundsInWords fiscal year)
  | .inFiscalPeriod =>
    let period ← condition.fiscalPeriodOperand values.head?
    return days (← condition.fiscalPeriodBoundsInWords fiscal
      (← fiscal.yearOfInWords today, period))
  | .fiscalPeriodAndYear reach =>
    let period ← condition.fiscalPeriodOperand values.head?
    let year ← condition.fiscalYearOperand values[1]?
    let (first, last) ← condition.fiscalPeriodBoundsInWords fiscal (year, period)
    let low := Instant.startOfDay first present.offset
    let high := Instant.endOfDay last present.offset
    return some (match reach with
      | .within => condition.betweenInstants low high
      | .orBefore => condition.betweenInstants .least high
      | .orAfter => condition.betweenInstants low .greatest)
  | _ => return none

variable {condition : Condition} {present : Present} {today date : Date} {n : Int}

theorem checked_eq {word : Word} (h : word.Fits n) : condition.checked word n = .ok n := by
  rw [checked, if_pos h]
  rfl

theorem checked_eq_error {word : Word} (h : ¬ word.Fits n) :
    condition.checked word n = .error condition.beyondCalendar := by
  rw [checked, if_neg h]
  rfl

theorem shiftDaysInWords_eq :
    condition.shiftDaysInWords date n = condition.inCalendar (date.addDays? n) := by
  unfold shiftDaysInWords timeSpan?
  split
  · rfl
  · rw [Date.addDays?_eq_none (by omega)]
    rfl

theorem shiftMonthsInWords_eq :
    condition.shiftMonthsInWords date n = condition.inCalendar (date.addMonths? n) := by
  unfold shiftMonthsInWords
  split
  · rfl
  · rw [Date.addMonths?_eq_none (by unfold limit32 at *; omega)]

theorem shiftSecondsInWords_eq {t : Instant} :
    condition.shiftSecondsInWords t n = condition.inCalendar (t.addSeconds? n) := by
  unfold shiftSecondsInWords timeSpan?
  split
  · rfl
  · rw [Instant.addSeconds?_eq_none (by omega)]
    rfl

theorem shiftInstantMonthsInWords_eq {t : Instant} :
    condition.shiftInstantMonthsInWords t n = condition.inCalendar (t.addMonths? n) := by
  unfold shiftInstantMonthsInWords
  split
  · rfl
  · rw [Instant.addMonths?, Date.addMonths?_eq_none (by unfold limit32 at *; omega)]
    rfl

theorem moveInWords_eq (direction : Direction) (hn : 0 ≤ n) (hlimit : n < signedLimit64) :
    moveInWords direction n = .ok (direction.sign * n) := by
  have hneg : Word.int64.hold (-n) = .ok (-n) := by
    apply Word.hold_eq
    rw [Word.int64_fits_iff]
    unfold signedLimit64 at hlimit
    omega
  cases direction with
  | last => rw [moveInWords, hneg, Direction.sign, Int.neg_one_mul]
  | next => rw [moveInWords, Direction.sign, Int.one_mul]

theorem countInWords_eq {unit : SpanUnit} (hn : 0 ≤ n) (h : unit.factor * n < signedLimit64) :
    condition.countInWords unit n = .ok (unit.factor * n) := by
  have hfits : Word.int64.Fits (unit.factor * n) := by
    have hpos : 0 ≤ unit.factor * n := by positivity
    exact ⟨hpos.trans' (by decide), h⟩
  cases unit with
  | weeks | years => exact checked_eq hfits
  | hours | days | months => exact congrArg Except.ok (Int.one_mul n).symm

theorem countInWords_eq_error {unit : SpanUnit} (hlimit : n < signedLimit64)
    (h : signedLimit64 ≤ unit.factor * n) :
    condition.countInWords unit n = .error condition.beyondCalendar := by
  have hfits : ¬ Word.int64.Fits (unit.factor * n) := fun hfits => not_lt_of_ge h hfits.2
  cases unit with
  | weeks | years => exact checked_eq_error hfits
  | hours | days | months =>
    rw [SpanUnit.factor] at h
    omega

theorem moveDayInWords_eq {unit : SpanUnit} (hunit : unit ≠ .hours) :
    condition.moveDayInWords today unit (unit.factor * n) =
      condition.inCalendar (shiftDay? today unit n) := by
  cases unit with
  | hours => contradiction
  | days =>
    rw [SpanUnit.factor, Nat.cast_one, Int.one_mul]
    exact shiftDaysInWords_eq
  | months =>
    rw [SpanUnit.factor, Nat.cast_one, Int.one_mul]
    exact shiftMonthsInWords_eq
  | weeks => exact shiftDaysInWords_eq
  | years => exact shiftMonthsInWords_eq

theorem shiftDay?_eq_none {unit : SpanUnit} (hunit : unit ≠ .hours)
    (h : unit.factor * n < -1000000000 ∨ 1000000000 < unit.factor * n) :
    shiftDay? today unit n = none := by
  cases unit with
  | hours => contradiction
  | days => exact Date.addDays?_eq_none (by rwa [SpanUnit.factor, Nat.cast_one, Int.one_mul] at h)
  | months =>
    exact Date.addMonths?_eq_none (by rwa [SpanUnit.factor, Nat.cast_one, Int.one_mul] at h)
  | weeks => exact Date.addDays?_eq_none h
  | years => exact Date.addMonths?_eq_none h

theorem shiftDayInWords_eq {direction : Direction} {unit : SpanUnit} (hunit : unit ≠ .hours)
    (hn : 0 ≤ n) (hlimit : n < signedLimit64) :
    condition.shiftDayInWords today direction unit n =
      condition.inCalendar (shiftDay? today unit (direction.sign * n)) := by
  have hcomm := Int.mul_left_comm unit.factor direction.sign n
  unfold shiftDayInWords
  by_cases hfits : unit.factor * n < signedLimit64
  · rw [countInWords_eq hn hfits, ok_bind, moveInWords_eq direction (by positivity) hfits, ok_bind,
      ← hcomm, moveDayInWords_eq hunit]
  · rw [countInWords_eq_error hlimit (by omega), error_bind, shiftDay?_eq_none hunit]
    · rfl
    · rw [hcomm]
      unfold signedLimit64 at hfits
      cases direction <;> rw [Direction.sign] <;> omega

theorem spanWindowInWords_eq {direction : Direction} {unit : SpanUnit} (hn : 0 ≤ n)
    (hlimit : n < signedLimit64) :
    condition.spanWindowInWords present today direction unit n =
      condition.spanWindow present today direction unit n := by
  by_cases hunit : unit = .hours
  · subst hunit
    cases direction with
    | last =>
      unfold spanWindowInWords
      dsimp only
      rw [moveInWords_eq .last hn hlimit, ok_bind, shiftSecondsInWords_eq, Direction.sign,
        Int.neg_one_mul]
      rfl
    | next =>
      unfold spanWindowInWords
      dsimp only
      rw [shiftSecondsInWords_eq]
      rfl
  · cases direction with
    | last =>
      have hwords : condition.spanWindowInWords present today .last unit n = (do
          return condition.betweenInstants
            (.startOfDay (← condition.shiftDayInWords today .last unit n) present.offset)
            present.now) := by
        cases unit with
        | hours => contradiction
        | _ => rfl
      rw [hwords, spanWindow_last hunit, shiftDayInWords_eq hunit hn hlimit, Direction.sign,
        Int.neg_one_mul]
    | next =>
      have hwords : condition.spanWindowInWords present today .next unit n = (do
          return condition.betweenInstants present.now
            (.endOfDay (← condition.shiftDayInWords today .next unit n) present.offset)) := by
        cases unit with
        | hours => contradiction
        | _ => rfl
      rw [hwords, spanWindow_next hunit, shiftDayInWords_eq hunit hn hlimit, Direction.sign,
        Int.one_mul]

theorem cutoffInWords_eq {now : Instant} {unit : AgeUnit} (hn : 0 ≤ n)
    (hlimit : n < signedLimit64) :
    condition.cutoffInWords now unit n =
      condition.inCalendar (shiftInstant? now unit (-n)) := by
  have hmove : moveInWords .last n = .ok (-n) := by
    rw [moveInWords_eq .last hn hlimit, Direction.sign, Int.neg_one_mul]
  unfold cutoffInWords
  cases unit with
  | minutes =>
    dsimp only
    rw [hmove, ok_bind]
    exact shiftSecondsInWords_eq
  | span unit =>
    cases unit with
    | hours | days | weeks =>
      dsimp only
      rw [hmove, ok_bind]
      exact shiftSecondsInWords_eq
    | months =>
      dsimp only
      rw [hmove, ok_bind]
      exact shiftInstantMonthsInWords_eq
    | years =>
      dsimp only
      by_cases hfits : (SpanUnit.years.factor : Int) * n < signedLimit64
      · rw [countInWords_eq hn hfits, ok_bind, moveInWords_eq .last (by positivity) hfits, ok_bind,
          shiftInstantMonthsInWords_eq, Int.mul_left_comm, Direction.sign, Int.neg_one_mul]
        rfl
      · have hfar : now.addMonths? (12 * -n) = none := by
          rw [Instant.addMonths?, Date.addMonths?_eq_none]
          · rfl
          · rw [SpanUnit.factor] at hfits
            unfold signedLimit64 at hfits
            omega
        rw [countInWords_eq_error hlimit (by omega), error_bind, shiftInstant?, hfar]
        rfl

theorem calendarDaysInWords_eq {turn : Turn} {unit : CalendarUnit} :
    condition.calendarDaysInWords today turn unit =
      condition.inCalendar (calendarDays? today turn unit) := by
  have hclosed : ∀ (moved : Date) (month day : Nat), month ≤ 12 →
      Date.clampedInWords moved.year month day = .ok (Date.clamped moved.year month day) := by
    intro moved month day hmonth
    have hfirst := moved.valid.first_year
    exact Date.clampedInWords_eq (by omega) moved.valid.last_year hmonth day
  unfold calendarDaysInWords calendarDays?
  cases unit with
  | week =>
    dsimp only
    rw [shiftDaysInWords_eq]
    cases today.weekStart.addDays? (7 * turn.shift) with
    | none => rfl
    | some first =>
      rw [inCalendar, ok_bind, shiftDaysInWords_eq]
      cases hlast : first.addDays? 6 with
      | none =>
        rw [Option.bind_eq_bind, Option.bind_some, hlast]
        rfl
      | some last =>
        rw [Option.bind_eq_bind, Option.bind_some, hlast]
        rfl
  | month =>
    dsimp only
    rw [shiftMonthsInWords_eq]
    cases today.addMonths? turn.shift with
    | none => rfl
    | some moved =>
      rw [inCalendar, ok_bind, hclosed moved _ _ moved.valid.last_month]
      rfl
  | year =>
    dsimp only
    rw [shiftMonthsInWords_eq]
    cases today.addMonths? (12 * turn.shift) with
    | none => rfl
    | some moved =>
      rw [inCalendar, ok_bind, hclosed moved 1 1 (by decide), hclosed moved 12 31 (by decide)]
      rfl

section Fiscal

variable {fiscal : FiscalSettings} (valid : fiscal.validate = .ok ())

include valid

theorem fiscalYearBoundsInWords_eq (year : Int) :
    condition.fiscalYearBoundsInWords fiscal year = condition.fiscalYearBounds fiscal year := by
  unfold fiscalYearBoundsInWords fiscalYearBounds
  split
  · rename_i held
    exact FiscalSettings.yearBoundsInWords_eq valid held
  · rfl

theorem fiscalPeriodBoundsInWords_eq (target : Int × Nat) :
    condition.fiscalPeriodBoundsInWords fiscal target =
      condition.fiscalPeriodBounds fiscal target := by
  unfold fiscalPeriodBoundsInWords fiscalPeriodBounds
  split
  · rename_i held
    exact FiscalSettings.periodBoundsInWords_eq valid held target.2
  · rfl

theorem periodOf?_eq (date : Date) : fiscal.periodOf? date = .ok (fiscal.periodOf date) :=
  FiscalSettings.guarded_eq valid (by simpa using date.valid.last_year) _

omit valid in
theorem offsetPeriodInWords_eq (date : Date) (delta : Int) :
    condition.offsetPeriodInWords fiscal (fiscal.periodOf date) delta =
      condition.offsetPeriod fiscal (fiscal.periodOf date) delta := by
  obtain ⟨hyear, hperiod⟩ := fiscal.periodOf_bounds date
  obtain ⟨hlow, hhigh⟩ := fiscal.yearOf_bounds date
  rw [← hyear] at hlow hhigh
  rw [offsetPeriodInWords, FiscalSettings.offsetPeriodInWords_eq (by omega) (by omega)
    (by unfold limit32; omega), ok_bind, offsetPeriod]

theorem fiscalYearBounds_cases (condition : Condition) (year : Int) :
    (∃ days, condition.fiscalYearBounds fiscal year = .ok days) ∨
      condition.fiscalYearBounds fiscal year = .error condition.beyondCalendar := by
  by_cases held : fiscal.containsYear year = true
  · exact .inl (condition.exists_fiscalYearBounds valid held)
  · exact .inr (if_neg held)

omit valid in
theorem fiscalYearBounds_of_not_fits {year : Int} (h : ¬ Word.int32.Fits year) :
    condition.fiscalYearBounds fiscal year = .error condition.beyondCalendar := by
  apply if_neg
  intro held
  obtain ⟨hfirst, hlast⟩ := FiscalSettings.containsYear_spec held
  exact h (Word.int32_fits_iff.mpr ⟨by omega, by omega⟩)

theorem fiscalYearsInWords_eq (first last : Int) :
    (do
      let first ← condition.checked .int32 first
      let last ← condition.checked .int32 last
      return ((← condition.fiscalYearBoundsInWords fiscal first).1,
        (← condition.fiscalYearBoundsInWords fiscal last).2)) = (do
      return ((← condition.fiscalYearBounds fiscal first).1,
        (← condition.fiscalYearBounds fiscal last).2)) := by
  by_cases hfirst : Word.int32.Fits first
  · by_cases hlast : Word.int32.Fits last
    · rw [checked_eq hfirst, checked_eq hlast, ok_bind, ok_bind]
      simp only [fiscalYearBoundsInWords_eq valid]
    · rw [checked_eq hfirst, checked_eq_error hlast, fiscalYearBounds_of_not_fits hlast]
      obtain ⟨days, hdays⟩ | hbeyond := condition.fiscalYearBounds_cases valid first
      · rw [hdays]
        rfl
      · rw [hbeyond]
        rfl
  · rw [checked_eq_error hfirst, fiscalYearBounds_of_not_fits hfirst]
    rfl

theorem fiscalDaysInWords_eq (turn : Turn) (unit : FiscalUnit) :
    condition.fiscalDaysInWords fiscal today turn unit =
      condition.fiscalDays fiscal today turn unit := by
  unfold fiscalDaysInWords fiscalDays
  cases unit with
  | year =>
    dsimp only
    rw [FiscalSettings.yearOfInWords_eq valid, FiscalSettings.yearOf?_eq valid, ok_bind, ok_bind]
    by_cases hfits : Word.int32.Fits (fiscal.yearOf today + turn.shift)
    · rw [checked_eq hfits, ok_bind, fiscalYearBoundsInWords_eq valid]
    · rw [checked_eq_error hfits, error_bind, fiscalYearBounds_of_not_fits hfits]
  | period =>
    dsimp only
    rw [FiscalSettings.periodOfInWords_eq valid, periodOf?_eq valid, ok_bind, ok_bind,
      offsetPeriodInWords_eq]
    congr 1
    funext target
    exact fiscalPeriodBoundsInWords_eq valid target

theorem fiscalSpanDaysInWords_eq (direction : Direction) (unit : FiscalUnit) (hn : 1 ≤ n)
    (hlimit : n < signedLimit64) :
    condition.fiscalSpanDaysInWords fiscal today direction n unit =
      condition.fiscalSpanDays fiscal today direction n unit := by
  cases unit with
  | year =>
    rw [fiscalSpanDays_year]
    unfold fiscalSpanDaysInWords
    dsimp only
    by_cases hfits : Word.int32.Fits n
    · rw [if_neg (show ¬ signedLimit32 ≤ n from not_le.mpr hfits.2), checked_eq hfits, ok_bind,
        FiscalSettings.yearOfInWords_eq valid, FiscalSettings.yearOf?_eq valid, ok_bind, ok_bind,
        fiscalYearsInWords_eq valid]
    · have hlarge : signedLimit32 ≤ n := by
        rw [Word.int32_fits_iff] at hfits
        unfold signedLimit32
        omega
      rw [if_pos hlarge, checked_eq_error hfits, error_bind]
  | period =>
    have hshift : Word.int64.hold (spanEnds direction n).1 = .ok (spanEnds direction n).1 := by
      apply Word.hold_eq
      rw [Word.int64_fits_iff]
      unfold signedLimit64 at hlimit
      cases direction <;> simp only [spanEnds] <;> omega
    rw [fiscalSpanDays_period, fiscalSpanDaysInWords, FiscalSettings.periodOfInWords_eq valid,
      periodOf?_eq valid, ok_bind, ok_bind, hshift, ok_bind, offsetPeriodInWords_eq,
      offsetPeriodInWords_eq]
    simp only [fiscalPeriodBoundsInWords_eq valid]

end Fiscal

theorem windowInWords?_eq (valid : present.fiscal.validate = .ok ()) (values : List Value) :
    condition.windowInWords? values present = condition.window? values present := by
  unfold windowInWords? window?
  congr 1
  funext today
  dsimp only
  cases condition.operator with
  | day turn =>
    cases turn with
    | this =>
      have hstay : today.addDays? 0 = some today :=
        Date.addDays?_eq_some_iff.mpr (Int.add_zero _).symm
      dsimp only [Turn.shift]
      rw [hstay]
      rfl
    | last | next =>
      dsimp only
      rw [shiftDaysInWords_eq]
  | sevenDays direction =>
    cases direction with
    | last | next =>
      dsimp only
      rw [shiftSecondsInWords_eq]
      rfl
  | calendar turn unit =>
    dsimp only
    rw [calendarDaysInWords_eq]
  | span direction unit =>
    dsimp only
    cases hcount : condition.countOperand values 0 with
    | error fault => rfl
    | ok n =>
      obtain ⟨hleast, hlimit⟩ := countOperand_bounds hcount
      rw [ok_bind, ok_bind, spanWindowInWords_eq hleast hlimit]
  | olderThan unit =>
    dsimp only
    cases hcount : condition.countOperand values 1 with
    | error fault => rfl
    | ok n =>
      obtain ⟨hleast, hlimit⟩ := countOperand_bounds hcount
      rw [ok_bind, ok_bind, cutoffInWords_eq (by omega) hlimit]
  | fiscal turn unit =>
    dsimp only
    rw [fiscalDaysInWords_eq valid]
  | fiscalSpan direction unit =>
    dsimp only
    cases hcount : condition.countOperand values 1 with
    | error fault => rfl
    | ok n =>
      obtain ⟨hleast, hlimit⟩ := countOperand_bounds hcount
      rw [ok_bind, ok_bind, fiscalSpanDaysInWords_eq valid direction unit hleast hlimit]
  | inFiscalYear =>
    simp only [fiscalYearBoundsInWords_eq valid]
  | inFiscalPeriod =>
    simp only [fiscalPeriodBoundsInWords_eq valid, FiscalSettings.yearOfInWords_eq valid]
  | fiscalPeriodAndYear reach =>
    cases reach <;> simp only [fiscalPeriodBoundsInWords_eq valid]
  | _ => rfl

end Condition

end RecordQuery
