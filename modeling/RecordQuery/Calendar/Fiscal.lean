import RecordQuery.Error

/-!
Fiscal years and their periods. A fiscal year begins on the same day of every year, moved into its
month where the month is shorter, and is divided into equal numbers of months or into thirteen
periods of four weeks, the last of which takes what is left.
-/

namespace RecordQuery

inductive FiscalTemplate where
  | annually
  | semiAnnually
  | quarterly
  | monthly
  | fourWeek
  deriving DecidableEq, Repr

namespace FiscalTemplate

def periods : FiscalTemplate → Nat
  | .annually => 1
  | .semiAnnually => 2
  | .quarterly => 4
  | .monthly => 12
  | .fourWeek => 13

def monthsPerPeriod? : FiscalTemplate → Option Nat
  | .fourWeek => none
  | template => some (12 / template.periods)

def name : FiscalTemplate → String
  | .annually => "Annually"
  | .semiAnnually => "SemiAnnually"
  | .quarterly => "Quarterly"
  | .monthly => "Monthly"
  | .fourWeek => "FourWeek"

def ofName? (name : String) : Option FiscalTemplate :=
  [annually, semiAnnually, quarterly, monthly, fourWeek].find? (·.name == name)

end FiscalTemplate

structure FiscalSettings where
  startMonth : Nat
  startDay : Nat
  template : FiscalTemplate
  deriving DecidableEq, Repr

namespace FiscalSettings

def default : FiscalSettings := ⟨1, 1, .annually⟩

instance : Inhabited FiscalSettings := ⟨default⟩

def validate (settings : FiscalSettings) : Except Error Unit :=
  if ¬ (1 ≤ settings.startMonth ∧ settings.startMonth ≤ 12) then
    .error (.setting (.fiscalMonth settings.startMonth))
  else if ¬ (1 ≤ settings.startDay ∧ settings.startDay ≤ 31) then
    .error (.setting (.fiscalDay settings.startDay))
  else
    .ok ()

def periods (settings : FiscalSettings) : Nat :=
  settings.template.periods

def yearStart (settings : FiscalSettings) (year : Int) : Date :=
  .clamped year settings.startMonth settings.startDay

def yearOf (settings : FiscalSettings) (date : Date) : Int :=
  if settings.yearStart date.year ≤ date then date.year else date.year - 1

def yearBounds (settings : FiscalSettings) (year : Int) : Date × Date :=
  (settings.yearStart year, (settings.yearStart (min (year + 1) (signedLimit32 - 1))).previous)

def containsYear (_settings : FiscalSettings) (year : Int) : Bool :=
  decide (Date.firstYear ≤ year ∧ year + 2 ≤ Date.lastYear)

def periodBounds (settings : FiscalSettings) (year : Int) (period : Nat) :
    Except Error (Date × Date) :=
  if period = 0 ∨ settings.periods < period then
    .error (.operand (.noSuchPeriod settings.periods period))
  else
    let start := settings.yearStart year
    match settings.template.monthsPerPeriod? with
    | some months =>
      .ok (start.addMonths ((period - 1) * months : Nat),
        (start.addMonths (period * months : Nat)).previous)
    | none =>
      match start.addDays? (28 * (period - 1) : Nat) with
      | none => .error (.operand (.fiscalYearBeyondCalendar year))
      | some first =>
        if period = settings.periods then .ok (first, (settings.yearBounds year).2)
        else
          match first.addDays? 27 with
          | none => .error (.operand (.fiscalYearBeyondCalendar year))
          | some last => .ok (first, last)

def periodOf (settings : FiscalSettings) (date : Date) : Int × Nat :=
  let year := settings.yearOf date
  let start := settings.yearStart year
  match settings.template.monthsPerPeriod? with
  | some months =>
    let begun := (List.range' 1 (settings.periods - 1)).takeWhile fun period =>
      decide (start.addMonths (period * months : Nat) ≤ date)
    (year, begun.length + 1)
  | none =>
    (year, max 1 (min ((date.number - start.number).toNat / 28 + 1) settings.periods))

def offsetPeriod? (settings : FiscalSettings) (year : Int) (period : Nat) (delta : Int) :
    Option (Int × Nat) :=
  let index := year * settings.periods + period - 1 + delta
  let newYear := index / settings.periods
  if FitsInt32 newYear then
    some (newYear, (index % settings.periods).toNat + 1)
  else
    none

def isComputable (settings : FiscalSettings) (year : Int) : Bool :=
  decide (settings.startMonth + 1 < limit32) &&
    (settings.startMonth != 12 || decide (year + 1 < signedLimit32))

def guarded {α : Type} (settings : FiscalSettings) (years : List Int) (answer : α) :
    Except Error α :=
  if years.all settings.isComputable then .ok answer else .error .overflow

def nextYear (year : Int) : Int := min (year + 1) (signedLimit32 - 1)

def yearStart? (settings : FiscalSettings) (year : Int) : Except Error Date :=
  settings.guarded [year] (settings.yearStart year)

def yearOf? (settings : FiscalSettings) (date : Date) : Except Error Int :=
  settings.guarded [date.year] (settings.yearOf date)

def yearBounds? (settings : FiscalSettings) (year : Int) : Except Error (Date × Date) :=
  settings.guarded [year, nextYear year] (settings.yearBounds year)

def periodBounds? (settings : FiscalSettings) (year : Int) (period : Nat) :
    Except Error (Date × Date) :=
  let years :=
    if settings.template = .fourWeek ∧ period = settings.periods then [year, nextYear year]
    else [year]
  (settings.periodBounds year period).bind (settings.guarded years)

def periodOf? (settings : FiscalSettings) (date : Date) : Except Error (Int × Nat) :=
  settings.guarded [date.year] (settings.periodOf date)

end FiscalSettings

end RecordQuery
