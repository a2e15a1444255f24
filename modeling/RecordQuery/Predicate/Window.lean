import RecordQuery.Calendar.Fiscal
import RecordQuery.Query.Filter
import RecordQuery.Value.Scalar

namespace RecordQuery

structure Present where
  now : Instant
  offset : UtcOffset
  fiscal : FiscalSettings
  deriving DecidableEq

namespace Present

def today (present : Present) : Except Error Date :=
  match present.now.localDate? present.offset with
  | some date => .ok date
  | none => .error .overflow

end Present

def Turn.shift : Turn → Int
  | .last => -1
  | .this => 0
  | .next => 1

def Direction.sign : Direction → Int
  | .last => -1
  | .next => 1

namespace Condition

def beyondCalendar (condition : Condition) : Error :=
  .operand (.beyondCalendar condition.operator condition.column)

def inCalendar {α : Type} (condition : Condition) : Option α → Except Error α
  | some found => .ok found
  | none => .error condition.beyondCalendar

def betweenInstants (condition : Condition) (low high : Instant) : Condition :=
  condition.derive (.between false) [.dateTime low, .dateTime high]

def onDay (condition : Condition) (day : Date) : Condition :=
  condition.derive (.on false) [.text day.text]

def withinDays (condition : Condition) (present : Present) (days : Date × Date) : Condition :=
  let (low, high) := Instant.dayWindow days.1 days.2 present.offset
  condition.betweenInstants low high

def numberAtLeast? (least : Int) (operand? : Option Value) : Option Int :=
  operand?.bind fun operand =>
    let n := operand.wholeNumber
    if n = Value.noNumber ∨ n.toInt < least then none else some n.toInt

def countOperand (condition : Condition) (values : List Value) (least : Nat) : Except Error Int :=
  match numberAtLeast? least values.head? with
  | some n => .ok n
  | none => .error (.operand (.countNeeded condition.operator condition.column least))

def fiscalOperand (condition : Condition) (operand? : Option Value) (unit : FiscalUnit) :
    Except Error Int :=
  match numberAtLeast? 0 operand? with
  | some n => .ok n
  | none => .error (.operand (.fiscalNumberNeeded condition.operator condition.column unit))

def fiscalPeriodOperand (condition : Condition) (operand? : Option Value) : Except Error Nat := do
  let n ← condition.fiscalOperand operand? .period
  if n < limit32 then return n.toNat
  else throw (.operand (.fiscalPeriodTooLarge condition.column))

def fiscalYearOperand (condition : Condition) (operand? : Option Value) : Except Error Int := do
  let n ← condition.fiscalOperand operand? .year
  if n < signedLimit32 then return n
  else throw (.operand (.fiscalYearTooLarge condition.column))

def fiscalYearBounds (condition : Condition) (fiscal : FiscalSettings) (year : Int) :
    Except Error (Date × Date) :=
  if fiscal.containsYear year then fiscal.yearBounds? year
  else .error condition.beyondCalendar

def fiscalPeriodBounds (condition : Condition) (fiscal : FiscalSettings) (target : Int × Nat) :
    Except Error (Date × Date) :=
  if fiscal.containsYear target.1 then fiscal.periodBounds? target.1 target.2
  else .error condition.beyondCalendar

def offsetPeriod (condition : Condition) (fiscal : FiscalSettings) (start : Int × Nat)
    (delta : Int) : Except Error (Int × Nat) :=
  condition.inCalendar (fiscal.offsetPeriod? start.1 start.2 delta)

def shiftDay? (date : Date) (unit : SpanUnit) (n : Int) : Option Date :=
  match unit with
  | .hours => some date
  | .days => date.addDays? n
  | .weeks => date.addDays? (7 * n)
  | .months => date.addMonths? n
  | .years => date.addMonths? (12 * n)

def shiftInstant? (t : Instant) (unit : AgeUnit) (n : Int) : Option Instant :=
  match unit with
  | .minutes => t.addSeconds? (60 * n)
  | .span .hours => t.addSeconds? (3600 * n)
  | .span .days => t.addSeconds? (86400 * n)
  | .span .weeks => t.addSeconds? (604800 * n)
  | .span .months => t.addMonths? n
  | .span .years => t.addMonths? (12 * n)

def spanWindow (condition : Condition) (present : Present) (today : Date) (direction : Direction)
    (unit : SpanUnit) (n : Int) : Except Error Condition := do
  let now := present.now
  match direction, unit with
  | .last, .hours =>
    return condition.betweenInstants
      (← condition.inCalendar (shiftInstant? now (.span .hours) (-n))) now
  | .next, .hours =>
    return condition.betweenInstants now
      (← condition.inCalendar (shiftInstant? now (.span .hours) n))
  | .last, unit =>
    let day ← condition.inCalendar (shiftDay? today unit (-n))
    return condition.betweenInstants (.startOfDay day present.offset) now
  | .next, unit =>
    let day ← condition.inCalendar (shiftDay? today unit n)
    return condition.betweenInstants now (.endOfDay day present.offset)

def calendarDays? (today : Date) (turn : Turn) : CalendarUnit → Option (Date × Date)
  | .week => do
    let first ← today.weekStart.addDays? (7 * turn.shift)
    return (first, ← first.addDays? 6)
  | .month => (today.addMonths? turn.shift).map Date.monthBounds
  | .year => (today.addMonths? (12 * turn.shift)).map Date.yearBounds

def fiscalDays (condition : Condition) (fiscal : FiscalSettings) (today : Date) (turn : Turn) :
    FiscalUnit → Except Error (Date × Date)
  | .year => do condition.fiscalYearBounds fiscal ((← fiscal.yearOf? today) + turn.shift)
  | .period => do
    let target ← condition.offsetPeriod fiscal (← fiscal.periodOf? today) turn.shift
    condition.fiscalPeriodBounds fiscal target

def fiscalSpanDays (condition : Condition) (fiscal : FiscalSettings) (today : Date)
    (direction : Direction) (n : Int) (unit : FiscalUnit) : Except Error (Date × Date) := do
  let (first, last) : Int × Int :=
    match direction with
    | .last => (-n, -1)
    | .next => (1, n)
  match unit with
  | .year =>
    if signedLimit32 ≤ n then throw condition.beyondCalendar
    let year ← fiscal.yearOf? today
    return ((← condition.fiscalYearBounds fiscal (year + first)).1,
      (← condition.fiscalYearBounds fiscal (year + last)).2)
  | .period =>
    let current ← fiscal.periodOf? today
    let firstTarget ← condition.offsetPeriod fiscal current first
    let lastTarget ← condition.offsetPeriod fiscal current last
    return ((← condition.fiscalPeriodBounds fiscal firstTarget).1,
      (← condition.fiscalPeriodBounds fiscal lastTarget).2)

/-- The condition said without the present, for an operator that names a window; `none` for the
other operators. -/
def window? (condition : Condition) (values : List Value) (present : Present) :
    Except Error (Option Condition) := do
  let today ← present.today
  let fiscal := present.fiscal
  let days (bounds : Date × Date) : Option Condition := some (condition.withinDays present bounds)
  match condition.operator with
  | .day turn => return some (condition.onDay (← condition.inCalendar (today.addDays? turn.shift)))
  | .sevenDays .last =>
    return some (condition.betweenInstants
      (← condition.inCalendar (shiftInstant? present.now (.span .days) (-7))) present.now)
  | .sevenDays .next =>
    return some (condition.betweenInstants present.now
      (← condition.inCalendar (shiftInstant? present.now (.span .days) 7)))
  | .calendar turn unit => return days (← condition.inCalendar (calendarDays? today turn unit))
  | .span direction unit =>
    let n ← condition.countOperand values 0
    return some (← condition.spanWindow present today direction unit n)
  | .olderThan unit =>
    let n ← condition.countOperand values 1
    let cutoff ← condition.inCalendar (shiftInstant? present.now unit (-n))
    return some (condition.derive (.compare .less) [.dateTime cutoff])
  | .fiscal turn unit => return days (← condition.fiscalDays fiscal today turn unit)
  | .fiscalSpan direction unit =>
    let n ← condition.countOperand values 1
    return days (← condition.fiscalSpanDays fiscal today direction n unit)
  | .inFiscalYear =>
    let year ← condition.fiscalYearOperand values.head?
    return days (← condition.fiscalYearBounds fiscal year)
  | .inFiscalPeriod =>
    let period ← condition.fiscalPeriodOperand values.head?
    return days (← condition.fiscalPeriodBounds fiscal (← fiscal.yearOf? today, period))
  | .fiscalPeriodAndYear reach =>
    let period ← condition.fiscalPeriodOperand values.head?
    let year ← condition.fiscalYearOperand values[1]?
    let (first, last) ← condition.fiscalPeriodBounds fiscal (year, period)
    let low := Instant.startOfDay first present.offset
    let high := Instant.endOfDay last present.offset
    return some (match reach with
      | .within => condition.betweenInstants low high
      | .orBefore => condition.betweenInstants .least high
      | .orAfter => condition.betweenInstants low .greatest)
  | _ => return none

end Condition

end RecordQuery
