import RecordQuery.Proofs.Predicate.CalendarWindows
import RecordQuery.Proofs.Predicate.WindowForms
import RecordQuery.Proofs.Predicate.WindowWords

/-!
Windows are safe to compute: with valid fiscal settings, and a present day, a condition has a window
or it has none, or its operand is refused. What is said of a window speaks of the same column, and
names no window again.
-/

namespace RecordQuery

def Ends {α : Type} (good : α → Prop) : Except Error α → Prop
  | .ok a => good a
  | .error fault => ∃ reason, fault = .operand reason

theorem Ends.bind {α β : Type} {good : α → Prop} {better : β → Prop} {step : Except Error α}
    {next : α → Except Error β} (h : Ends good step)
    (hnext : ∀ a, good a → Ends better (next a)) : Ends better (step >>= next) := by
  cases step with
  | ok a => exact hnext a h
  | error fault => exact h

/-- The step has an answer, or it refuses an operand. -/
abbrev Settles {α : Type} (step : Except Error α) : Prop := Ends (fun _ => True) step

namespace FiscalSettings

variable {settings : FiscalSettings} {years : List Int} {α : Type}

theorem guarded_of_lt (hmonth : settings.startMonth + 1 < limit32) (h : ∀ y ∈ years, y ≤ 262142)
    (answer : α) : settings.guarded years answer = .ok answer := by
  apply if_pos
  rw [List.all_eq_true]
  intro y hy
  have hlast := h y hy
  simp only [isComputable, signedLimit32, Bool.and_eq_true, decide_eq_true_eq, Bool.or_eq_true]
  exact ⟨hmonth, .inr (by omega)⟩

theorem startMonth_lt_of_validate (valid : settings.validate = .ok ()) :
    settings.startMonth + 1 < limit32 := by
  have hmonth := (validate_spec valid).2.1
  unfold limit32
  omega

theorem periodBounds_settles (settings : FiscalSettings) (year : Int) (period : Nat) :
    Settles (settings.periodBounds year period) := by
  unfold periodBounds
  split
  · exact ⟨_, rfl⟩
  · dsimp only
    split
    · trivial
    · split
      · exact ⟨_, rfl⟩
      · split
        · trivial
        · split
          · exact ⟨_, rfl⟩
          · trivial

end FiscalSettings

namespace Condition

/-- The condition speaks of the same column as the other, and of fixed instants or a fixed day, as
many as its operator takes. -/
structure SaysWindowOf (derived condition : Condition) : Prop where
  column_eq : derived.column = condition.column
  alias_eq : derived.alias? = condition.alias?
  outer_eq : derived.outer = condition.outer
  other_eq : derived.other? = none
  operator_mem : derived.operator ∈ [.between false, .on false, .compare .less]
  accepts : derived.operator.arity.accepts (Value.flattenAll derived.values).length = true

variable {condition derived : Condition} {present : Present} {today : Date} {values : List Value}

theorem saysWindowOf_of_window? (h : condition.window? values present = .ok (some derived)) :
    derived.SaysWindowOf condition := by
  rcases eq_of_window? h with ⟨turn, day, -, rfl⟩ | ⟨window, rfl⟩
  · exact ⟨rfl, rfl, rfl, rfl, by simp [onDay, derive], rfl⟩
  · cases window with
    | between low high =>
      exact ⟨rfl, rfl, rfl, rfl, by simp [Window.said, betweenInstants, derive], rfl⟩
    | before cutoff => exact ⟨rfl, rfl, rfl, rfl, by simp [Window.said, derive], rfl⟩

theorem SaysWindowOf.window?_eq (h : derived.SaysWindowOf condition)
    (htoday : present.today = .ok today) (values : List Value) :
    derived.window? values present = .ok none := by
  have hmem := h.operator_mem
  simp only [List.mem_cons, List.not_mem_nil, or_false] at hmem
  have hnames : derived.operator.namesWindow = false := by
    rcases hmem with hoperator | hoperator | hoperator <;> rw [hoperator] <;> rfl
  rw [window?_of_not_namesWindow hnames, htoday]
  rfl

theorem inCalendar_settles {α : Type} (condition : Condition) (found? : Option α) :
    Settles (condition.inCalendar found?) := by
  cases found? with
  | some found => trivial
  | none => exact ⟨_, rfl⟩

theorem countOperand_settles (condition : Condition) (values : List Value) (least : Nat) :
    Settles (condition.countOperand values least) := by
  unfold countOperand
  split
  · trivial
  · exact ⟨_, rfl⟩

theorem fiscalOperand_settles (condition : Condition) (operand? : Option Value)
    (unit : FiscalUnit) : Settles (condition.fiscalOperand operand? unit) := by
  unfold fiscalOperand
  split
  · trivial
  · exact ⟨_, rfl⟩

theorem fiscalPeriodOperand_settles (condition : Condition) (operand? : Option Value) :
    Settles (condition.fiscalPeriodOperand operand?) := by
  apply (condition.fiscalOperand_settles operand? .period).bind
  intro n _
  split
  · trivial
  · exact ⟨_, rfl⟩

theorem fiscalYearOperand_settles (condition : Condition) (operand? : Option Value) :
    Settles (condition.fiscalYearOperand operand?) := by
  apply (condition.fiscalOperand_settles operand? .year).bind
  intro n _
  split
  · trivial
  · exact ⟨_, rfl⟩

theorem spanWindow_settles (condition : Condition) (present : Present) (today : Date)
    (direction : Direction) (unit : SpanUnit) (n : Int) :
    Settles (condition.spanWindow present today direction unit n) := by
  unfold spanWindow
  dsimp only
  split
  all_goals exact (condition.inCalendar_settles _).bind fun _ _ => trivial

section Fiscal

variable {fiscal : FiscalSettings} (hmonth : fiscal.startMonth + 1 < limit32)

include hmonth

theorem yearOf?_settles (today : Date) : Settles (fiscal.yearOf? today) := by
  rw [FiscalSettings.yearOf?,
    FiscalSettings.guarded_of_lt hmonth (by simpa using today.valid.last_year)]
  trivial

theorem periodOf?_settles (today : Date) : Settles (fiscal.periodOf? today) := by
  rw [FiscalSettings.periodOf?,
    FiscalSettings.guarded_of_lt hmonth (by simpa using today.valid.last_year)]
  trivial

theorem fiscalYearBounds_settles (condition : Condition) (year : Int) :
    Settles (condition.fiscalYearBounds fiscal year) := by
  unfold fiscalYearBounds
  split
  · rename_i held
    obtain ⟨hfirst, hlast⟩ := FiscalSettings.containsYear_spec held
    have hnext : FiscalSettings.nextYear year ≤ year + 1 := min_le_left _ _
    rw [FiscalSettings.yearBounds?, FiscalSettings.guarded_of_lt hmonth (by simp; omega)]
    trivial
  · exact ⟨_, rfl⟩

theorem fiscalPeriodBounds_settles (condition : Condition) (target : Int × Nat) :
    Settles (condition.fiscalPeriodBounds fiscal target) := by
  unfold fiscalPeriodBounds
  split
  · rename_i held
    obtain ⟨hfirst, hlast⟩ := FiscalSettings.containsYear_spec held
    have hnext : FiscalSettings.nextYear target.1 ≤ target.1 + 1 := min_le_left _ _
    apply (fiscal.periodBounds_settles target.1 target.2).bind
    intro bounds _
    rw [FiscalSettings.guarded_of_lt hmonth]
    · trivial
    · intro y hy
      split at hy <;> simp at hy <;> omega
  · exact ⟨_, rfl⟩

theorem fiscalDays_settles (condition : Condition) (today : Date) (turn : Turn)
    (unit : FiscalUnit) : Settles (condition.fiscalDays fiscal today turn unit) := by
  cases unit with
  | year =>
    exact (yearOf?_settles hmonth today).bind fun _ _ => fiscalYearBounds_settles hmonth _ _
  | period =>
    exact (periodOf?_settles hmonth today).bind fun _ _ =>
      (condition.inCalendar_settles _).bind fun _ _ => fiscalPeriodBounds_settles hmonth _ _

theorem fiscalSpanDays_settles (condition : Condition) (today : Date) (direction : Direction)
    (n : Int) (unit : FiscalUnit) :
    Settles (condition.fiscalSpanDays fiscal today direction n unit) := by
  cases unit with
  | year =>
    rw [fiscalSpanDays_year]
    split
    · exact ⟨_, rfl⟩
    · exact (yearOf?_settles hmonth today).bind fun _ _ =>
        (fiscalYearBounds_settles hmonth _ _).bind fun _ _ =>
          (fiscalYearBounds_settles hmonth _ _).bind fun _ _ => trivial
  | period =>
    rw [fiscalSpanDays_period]
    exact (periodOf?_settles hmonth today).bind fun _ _ =>
      (condition.inCalendar_settles _).bind fun _ _ =>
        (condition.inCalendar_settles _).bind fun _ _ =>
          (fiscalPeriodBounds_settles hmonth _ _).bind fun _ _ =>
            (fiscalPeriodBounds_settles hmonth _ _).bind fun _ _ => trivial

end Fiscal

theorem window?_settles (condition : Condition) (hmonth : present.fiscal.startMonth + 1 < limit32)
    (htoday : present.today = .ok today) (values : List Value) :
    Settles (condition.window? values present) := by
  have hdays : ∀ {bounds : Except Error (Date × Date)}, Settles bounds →
      Settles (bounds >>= fun days => .ok (some (condition.withinDays present days))) :=
    fun h => h.bind fun _ _ => trivial
  unfold window?
  rw [htoday, ok_bind]
  cases condition.operator with
  | day turn => exact (condition.inCalendar_settles _).bind fun _ _ => trivial
  | sevenDays direction =>
    cases direction with
    | last | next => exact (condition.inCalendar_settles _).bind fun _ _ => trivial
  | calendar turn unit => exact hdays (condition.inCalendar_settles _)
  | span direction unit =>
    exact (condition.countOperand_settles _ _).bind fun n _ =>
      (condition.spanWindow_settles present today direction unit n).bind fun _ _ => trivial
  | olderThan unit =>
    exact (condition.countOperand_settles _ _).bind fun n _ =>
      (condition.inCalendar_settles _).bind fun _ _ => trivial
  | fiscal turn unit => exact hdays (fiscalDays_settles hmonth _ _ _ _)
  | fiscalSpan direction unit =>
    exact (condition.countOperand_settles _ _).bind fun n _ =>
      hdays (fiscalSpanDays_settles hmonth _ _ _ _ _)
  | inFiscalYear =>
    exact (condition.fiscalYearOperand_settles _).bind fun year _ =>
      hdays (fiscalYearBounds_settles hmonth _ _)
  | inFiscalPeriod =>
    exact (condition.fiscalPeriodOperand_settles _).bind fun period _ =>
      (yearOf?_settles hmonth today).bind fun year _ =>
        hdays (fiscalPeriodBounds_settles hmonth _ _)
  | fiscalPeriodAndYear reach =>
    refine (condition.fiscalPeriodOperand_settles _).bind fun period _ =>
      (condition.fiscalYearOperand_settles _).bind fun year _ =>
        (fiscalPeriodBounds_settles hmonth _ _).bind fun days _ => ?_
    cases reach with
    | within | orBefore | orAfter => trivial
  | _ => trivial

theorem window?_ends (condition : Condition) (hmonth : present.fiscal.startMonth + 1 < limit32)
    (htoday : present.today = .ok today) (values : List Value) :
    Ends (fun derived? => ∀ derived ∈ derived?, derived.SaysWindowOf condition)
      (condition.window? values present) := by
  have hsettles := condition.window?_settles hmonth htoday values
  cases hwindow : condition.window? values present with
  | ok derived? =>
    rintro derived hderived
    exact saysWindowOf_of_window? (hwindow.trans (congrArg Except.ok hderived))
  | error fault =>
    rw [hwindow] at hsettles
    exact hsettles

end Condition

end RecordQuery
