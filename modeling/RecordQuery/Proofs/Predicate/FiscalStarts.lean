import RecordQuery.Proofs.Predicate.WindowSafety

namespace RecordQuery

theorem Settles.ne_overflow {α : Type} {step : Except Error α} (h : Settles step) :
    step ≠ .error .overflow := by
  rintro rfl
  obtain ⟨reason, hreason⟩ := h
  contradiction

theorem Settles.exists_error_bind {α β : Type} {step : Except Error α} {next : α → Except Error β}
    {asks : α → Prop} (h : Settles step)
    (hnext : ∀ a, ∃ fault, next a = .error fault ∧ (fault = .overflow ↔ asks a)) :
    ∃ fault, (step >>= next) = .error fault ∧
      (fault = .overflow ↔ ∃ a, step = .ok a ∧ asks a) := by
  cases step with
  | error fault =>
    have hother := h.ne_overflow
    exact ⟨fault, rfl, by simpa using hother⟩
  | ok a =>
    obtain ⟨fault, hfault, hiff⟩ := hnext a
    exact ⟨fault, hfault, by simpa using hiff⟩

def FiscalSettings.Endless (settings : FiscalSettings) : Prop := limit32 ≤ settings.startMonth + 1

namespace FiscalSettings

variable {settings : FiscalSettings} {year : Int}

theorem guarded_of_endless {α : Type} (h : settings.Endless) (year : Int) (years : List Int)
    (answer : α) : settings.guarded (year :: years) answer = .error .overflow := by
  apply if_neg
  unfold Endless at h
  simp only [List.all_cons, isComputable, Bool.and_eq_true, decide_eq_true_eq]
  omega

theorem yearStart_of_endless (h : settings.Endless) (year : Int) :
    settings.yearStart year = .least := by
  have hmonth : ∀ day, ¬ Date.Valid year settings.startMonth day := by
    intro day hvalid
    have hlast := hvalid.last_month
    unfold Endless limit32 at h
    omega
  rw [yearStart, Date.clamped, Date.ofParts?, dif_neg (hmonth _)]
  rfl

theorem periodBounds_of_endless (h : settings.Endless) (year : Int) {period : Nat}
    (hp : 1 ≤ period) (hp' : period ≤ settings.periods) :
    ∃ days, settings.periodBounds year period = .ok days := by
  have hperiods := settings.periods_le
  have hgreatest : Date.greatest.number = 95745399 := by decide
  have hleast : Date.least.number = -95746129 := by decide
  unfold periodBounds
  rw [if_neg (by omega), yearStart_of_endless h]
  cases settings.template.monthsPerPeriod? with
  | some months => exact ⟨_, rfl⟩
  | none =>
    obtain ⟨first, hfirst, hnumber⟩ := Date.exists_addDays? .least (28 * (period - 1) : Nat)
      (by omega) (by omega)
    obtain ⟨last, hlast, -⟩ := Date.exists_addDays? first 27 (by omega) (by omega)
    simp only [hfirst, hlast]
    split <;> exact ⟨_, rfl⟩

end FiscalSettings

namespace Condition

variable {condition : Condition} {present : Present} {today : Date} {values : List Value}

def AsksFiscalStart (condition : Condition) (settings : FiscalSettings) (values : List Value) :
    Prop :=
  match condition.operator with
  | .fiscal _ _ => True
  | .fiscalSpan _ unit =>
    ∃ n, condition.countOperand values 1 = .ok n ∧ (unit = .year → n < signedLimit32)
  | .inFiscalYear =>
    ∃ year, condition.fiscalYearOperand values.head? = .ok year ∧
      settings.containsYear year = true
  | .inFiscalPeriod => ∃ period, condition.fiscalPeriodOperand values.head? = .ok period
  | .fiscalPeriodAndYear _ =>
    ∃ period year, condition.fiscalPeriodOperand values.head? = .ok period ∧
      condition.fiscalYearOperand values[1]? = .ok year ∧ settings.containsYear year = true ∧
      1 ≤ period ∧ period ≤ settings.periods
  | _ => False

theorem fiscalPeriodBounds_of_endless {fiscal : FiscalSettings} (h : fiscal.Endless)
    (target : Int × Nat) :
    ∃ fault, condition.fiscalPeriodBounds fiscal target = .error fault ∧
      (fault = .overflow ↔ fiscal.containsYear target.1 = true ∧ 1 ≤ target.2 ∧
        target.2 ≤ fiscal.periods) := by
  unfold fiscalPeriodBounds
  split
  · rename_i held
    by_cases hrange : 1 ≤ target.2 ∧ target.2 ≤ fiscal.periods
    · obtain ⟨days, hdays⟩ := FiscalSettings.periodBounds_of_endless h target.1 hrange.1 hrange.2
      refine ⟨.overflow, ?_, by simp [held, hrange]⟩
      rw [FiscalSettings.periodBounds?, hdays]
      dsimp only [Except.bind]
      split <;> exact FiscalSettings.guarded_of_endless h _ _ _
    · refine ⟨.operand (.noSuchPeriod fiscal.periods target.2), ?_, by simp [hrange]⟩
      rw [FiscalSettings.periodBounds?, FiscalSettings.periodBounds, if_pos (by omega)]
      rfl
  · rename_i hbeyond
    exact ⟨_, rfl, by simp [beyondCalendar, hbeyond]⟩

theorem window?_of_endless (h : present.fiscal.Endless) (htoday : present.today = .ok today)
    (hoperator : condition.operator.isFiscal = true) (values : List Value) :
    ∃ fault, condition.window? values present = .error fault ∧
      (fault = .overflow ↔ condition.AsksFiscalStart present.fiscal values) := by
  have hyear : present.fiscal.yearOf? today = .error .overflow :=
    FiscalSettings.guarded_of_endless h _ _ _
  have hperiod : present.fiscal.periodOf? today = .error .overflow :=
    FiscalSettings.guarded_of_endless h _ _ _
  have hbounds (year : Int) : present.fiscal.yearBounds? year = .error .overflow :=
    FiscalSettings.guarded_of_endless h _ _ _
  unfold window? AsksFiscalStart
  rw [htoday, ok_bind]
  cases hcase : condition.operator with
  | fiscal turn unit =>
    refine ⟨.overflow, ?_, by simp⟩
    cases unit with
    | year =>
      dsimp only
      rw [fiscalDays, hyear]
      rfl
    | period =>
      dsimp only
      rw [fiscalDays, hperiod]
      rfl
  | fiscalSpan direction unit =>
    apply (condition.countOperand_settles values 1).exists_error_bind
    intro n
    cases unit with
    | year =>
      rw [fiscalSpanDays_year, hyear]
      split
      · rename_i hlarge
        exact ⟨_, rfl, by simpa [beyondCalendar] using hlarge⟩
      · rename_i hsmall
        exact ⟨_, rfl, by simpa using hsmall⟩
    | period =>
      rw [fiscalSpanDays_period, hperiod]
      exact ⟨_, rfl, by simp⟩
  | inFiscalYear =>
    apply (condition.fiscalYearOperand_settles values.head?).exists_error_bind
    intro year
    rw [fiscalYearBounds, hbounds]
    split
    · rename_i held
      exact ⟨_, rfl, by simpa using held⟩
    · rename_i hbeyond
      exact ⟨_, rfl, by simpa [beyondCalendar] using hbeyond⟩
  | inFiscalPeriod =>
    have hasks : (∃ period, condition.fiscalPeriodOperand values.head? = .ok period) ↔
        ∃ period, condition.fiscalPeriodOperand values.head? = .ok period ∧ True := by
      simp only [and_true]
    rw [hasks]
    apply (condition.fiscalPeriodOperand_settles values.head?).exists_error_bind
    intro period
    rw [hyear]
    exact ⟨_, rfl, by simp⟩
  | fiscalPeriodAndYear reach =>
    simp only [exists_and_left]
    apply (condition.fiscalPeriodOperand_settles values.head?).exists_error_bind
    intro period
    apply (condition.fiscalYearOperand_settles values[1]?).exists_error_bind
    intro year
    obtain ⟨fault, hfault, hiff⟩ := condition.fiscalPeriodBounds_of_endless h (year, period)
    rw [hfault]
    exact ⟨fault, rfl, hiff⟩
  | _ =>
    rw [hcase] at hoperator
    contradiction

theorem window?_of_not_isFiscal (hoperator : condition.operator.isFiscal = false)
    (values : List Value) :
    condition.window? values present =
      condition.window? values { present with fiscal := .default } := by
  obtain ⟨column, alias?, operator, operands, other?, outer⟩ := condition
  cases operator with
  | fiscal _ _ | fiscalSpan _ _ | inFiscalYear | inFiscalPeriod | fiscalPeriodAndYear _ =>
    contradiction
  | sevenDays direction => cases direction <;> rfl
  | _ => rfl

theorem window?_settles_of_fit
    (hfit : present.fiscal.Endless → condition.operator.isFiscal = false)
    (htoday : present.today = .ok today) (values : List Value) :
    Settles (condition.window? values present) := by
  by_cases hendless : present.fiscal.Endless
  · have hday : ({ present with fiscal := .default } : Present).today = .ok today := htoday
    rw [window?_of_not_isFiscal (hfit hendless)]
    exact condition.window?_settles (show 1 + 1 < limit32 by decide) hday values
  · exact condition.window?_settles (not_le.mp hendless) htoday values

theorem not_asksFiscalStart (h : condition.operator.isFiscal = false)
    (settings : FiscalSettings) (values : List Value) :
    ¬ condition.AsksFiscalStart settings values := by
  unfold AsksFiscalStart
  cases hcase : condition.operator with
  | fiscal _ _ | fiscalSpan _ _ | inFiscalYear | inFiscalPeriod | fiscalPeriodAndYear _ =>
    rw [hcase] at h
    contradiction
  | _ => exact id

theorem window?_eq_overflow_iff (htoday : present.today = .ok today) (values : List Value) :
    condition.window? values present = .error .overflow ↔
      present.fiscal.Endless ∧ condition.AsksFiscalStart present.fiscal values := by
  by_cases hstops : present.fiscal.Endless ∧ condition.operator.isFiscal = true
  · obtain ⟨fault, hfault, hiff⟩ := window?_of_endless hstops.1 htoday hstops.2 values
    rw [hfault, Except.error.injEq, hiff]
    exact (and_iff_right hstops.1).symm
  · have hfit : present.fiscal.Endless → condition.operator.isFiscal = false :=
      fun hendless => Bool.eq_false_iff.mpr fun hfiscal => hstops ⟨hendless, hfiscal⟩
    refine iff_of_false (window?_settles_of_fit hfit htoday values).ne_overflow ?_
    rintro ⟨hendless, hasks⟩
    exact not_asksFiscalStart (hfit hendless) _ _ hasks

end Condition

end RecordQuery
