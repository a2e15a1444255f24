import RecordQuery.Proofs.Calendar.LocalTime
import RecordQuery.Proofs.Calendar.Turns
import RecordQuery.Proofs.Predicate.Contrary

namespace RecordQuery

inductive TurningUnit where
  | calendar (unit : CalendarUnit)
  | fiscalYear

namespace TurningUnit

def operator (unit : TurningUnit) (turn : Turn) : Operator :=
  match unit with
  | .calendar unit => .calendar turn unit
  | .fiscalYear => .fiscal turn .year

def Same (unit : TurningUnit) (fiscal : FiscalSettings) (a b : Date) : Prop :=
  match unit with
  | .calendar .week => a.weekIndex = b.weekIndex
  | .calendar .month => a.year = b.year ∧ a.month = b.month
  | .calendar .year => a.year = b.year
  | .fiscalYear => fiscal.SameYear a b

end TurningUnit

theorem Present.today_eq_ok_iff {present : Present} {today : Date} :
    present.today = .ok today ↔ present.now.localDate? present.offset = some today := by
  unfold Present.today
  cases present.now.localDate? present.offset <;> simp

namespace Condition

variable {condition : Condition} {values : List Value} {present : Present} {today : Date}

theorem window?_calendar (htoday : present.today = .ok today) (turn : Turn) (unit : CalendarUnit) :
    (condition.saying (.calendar turn unit)).window? values present =
      (do return some (condition.withinDays present
        (← (condition.saying (.calendar turn unit)).inCalendar
          (calendarDays? today turn unit)))) := by
  unfold window?
  rw [htoday]
  rfl

theorem window?_fiscal (htoday : present.today = .ok today) (turn : Turn) (unit : FiscalUnit) :
    (condition.saying (.fiscal turn unit)).window? values present =
      (do return some (condition.withinDays present
        (← (condition.saying (.fiscal turn unit)).fiscalDays present.fiscal today turn unit))) := by
  unfold window?
  rw [htoday]
  rfl

theorem exists_calendarDays {turn : Turn} {unit : CalendarUnit}
    (htoday : present.today = .ok today) {derived : Condition}
    (h : (condition.saying (.calendar turn unit)).window? values present = .ok (some derived)) :
    ∃ days, calendarDays? today turn unit = some days ∧
      (condition.saying (.calendar turn unit)).window? values present =
        .ok (some (condition.withinDays present days)) := by
  rw [window?_calendar htoday] at h ⊢
  cases hdays : calendarDays? today turn unit with
  | some days => exact ⟨days, rfl, rfl⟩
  | none =>
    rw [hdays] at h
    contradiction

theorem exists_fiscalDays {turn : Turn} {unit : FiscalUnit} (htoday : present.today = .ok today)
    {derived : Condition}
    (h : (condition.saying (.fiscal turn unit)).window? values present = .ok (some derived)) :
    ∃ days, (condition.saying (.fiscal turn unit)).fiscalDays present.fiscal today turn unit =
        .ok days ∧
      (condition.saying (.fiscal turn unit)).window? values present =
        .ok (some (condition.withinDays present days)) := by
  rw [window?_fiscal htoday] at h ⊢
  obtain ⟨days, hdays, -⟩ := bind_eq_ok_iff.mp h
  rw [hdays]
  exact ⟨days, rfl, rfl⟩

theorem exists_today {derived : Condition}
    (h : condition.window? values present = .ok (some derived)) :
    ∃ today, present.today = .ok today :=
  let ⟨today, htoday, _⟩ := bind_eq_ok_iff.mp h
  ⟨today, htoday⟩

theorem exists_turns (valid : present.fiscal.validate = .ok ()) (htoday : present.today = .ok today)
    (unit : TurningUnit)
    (h : ∀ turn, ∃ derived,
      (condition.saying (unit.operator turn)).window? values present = .ok (some derived)) :
    ∃ days : Turn → Date × Date,
      (∀ turn, (condition.saying (unit.operator turn)).window? values present =
        .ok (some (condition.withinDays present (days turn)))) ∧
      Turns days fun day => unit.Same present.fiscal day today := by
  cases unit with
  | calendar unit =>
    have hdays := fun turn => (h turn).elim fun _ hderived => exists_calendarDays htoday hderived
    choose days hdays hwindow using hdays
    refine ⟨days, hwindow, ?_⟩
    cases unit with
    | week => exact Date.turns_week hdays
    | month => exact Date.turns_month hdays
    | year => exact Date.turns_year hdays
  | fiscalYear =>
    have hdays := fun turn => (h turn).elim fun _ hderived => exists_fiscalDays htoday hderived
    choose days hdays hwindow using hdays
    exact ⟨days, hwindow, FiscalSettings.turns_fiscalYear valid hdays⟩

/-- Neighbouring windows leave no gap and do not overlap, and the present one means its unit. -/
theorem windows_in_turn (valid : present.fiscal.validate = .ok ()) (unit : TurningUnit)
    (rewrites : ∀ turn, ∃ derived,
      (condition.saying (unit.operator turn)).window? values present = .ok (some derived)) :
    ∃ today, present.now.localDate? present.offset = some today ∧
      ∃ low high : Turn → Instant,
        (∀ turn, (condition.saying (unit.operator turn)).window? values present =
          .ok (some (condition.betweenInstants (low turn) (high turn)))) ∧
        (high .last).nanoseconds + 1000000 = (low .this).nanoseconds ∧
        (high .this).nanoseconds + 1000000 = (low .next).nanoseconds ∧
        ∀ (t : Instant) (day : Date), ¬ t.IsLeap → t.nano % 1000000 = 0 →
          t.localDate? present.offset = some day →
          (low .this ≤ t ∧ t ≤ high .this ↔ unit.Same present.fiscal day today) := by
  obtain ⟨today, htoday⟩ := (rewrites .this).elim fun _ h => exists_today h
  obtain ⟨days, hwindow, hturns⟩ := exists_turns valid htoday unit rewrites
  refine ⟨today, Present.today_eq_ok_iff.mp htoday,
    fun turn => Instant.startOfDay (days turn).1 present.offset,
    fun turn => Instant.endOfDay (days turn).2 present.offset, hwindow,
    Instant.nanoseconds_endOfDay_add present.offset hturns.last_this,
    Instant.nanoseconds_endOfDay_add present.offset hturns.this_next, ?_⟩
  intro t day hleap hmilli hday
  -- The neighbours keep the present window away from both ends of the calendar.
  have hfirst : Date.least.number < (days .this).1.number := by
    have hlow := (days .last).2.number_least_le
    have hturn := hturns.last_this
    omega
  have hlast : (days .this).2.number < Date.greatest.number := by
    have hhigh := (days .next).1.number_le_greatest
    have hturn := hturns.this_next
    omega
  rw [Instant.startOfDay_le_iff hday hfirst, Instant.le_endOfDay_iff hday hleap hmilli hlast]
  exact hturns.mem_iff day

theorem windows_in_turn_fiscalYear :
    let present : Present :=
      ⟨⟨⟨2024, 2, 28, by decide⟩, 84600, 0, by decide, by decide⟩, ⟨7200, by decide⟩,
        ⟨2, 30, .quarterly⟩⟩
    let condition : Condition := ⟨"createdon", none, .null false, [], none, false⟩
    present.fiscal.validate = .ok () ∧
      (∀ turn, ∃ derived, (condition.saying (.fiscal turn .year)).window? [] present =
        .ok (some derived)) ∧
      ∃ low high : Turn → Instant,
        (∀ turn, (condition.saying (.fiscal turn .year)).window? [] present =
          .ok (some (condition.betweenInstants (low turn) (high turn)))) ∧
        (high .this).nanoseconds + 1000000 = (low .next).nanoseconds := by
  intro present condition
  have valid : present.fiscal.validate = .ok () := rfl
  have rewrites : ∀ turn, ∃ derived, (condition.saying
      (TurningUnit.fiscalYear.operator turn)).window? [] present = .ok (some derived) := by
    have htoday : present.today = .ok ⟨2024, 2, 29, by decide⟩ := by decide
    have hdays : ∀ turn, ∃ days, (condition.saying (.fiscal turn .year)).fiscalDays present.fiscal
        ⟨2024, 2, 29, by decide⟩ turn .year = .ok days := by
      intro turn
      cases turn with
      | last => exact ⟨(⟨2023, 2, 28, by decide⟩, ⟨2024, 2, 28, by decide⟩), by decide⟩
      | this => exact ⟨(⟨2024, 2, 29, by decide⟩, ⟨2025, 2, 27, by decide⟩), by decide⟩
      | next => exact ⟨(⟨2025, 2, 28, by decide⟩, ⟨2026, 2, 27, by decide⟩), by decide⟩
    intro turn
    obtain ⟨days, hturn⟩ := hdays turn
    refine ⟨condition.withinDays present days, ?_⟩
    change (condition.saying (.fiscal turn .year)).window? [] present = _
    rw [window?_fiscal htoday, hturn]
    rfl
  obtain ⟨today, -, low, high, hwindow, -, hnext, -⟩ :=
    windows_in_turn valid .fiscalYear rewrites
  exact ⟨valid, rewrites, low, high, hwindow, hnext⟩

end Condition

end RecordQuery
