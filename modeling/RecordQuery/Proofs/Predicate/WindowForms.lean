import RecordQuery.Proofs.Calendar.LocalTime
import RecordQuery.Proofs.Predicate.Contrary

namespace RecordQuery

namespace Value

variable {value : Value} {type : AttributeType} {t : Instant}

theorem scalar?_eq_dateTime_iff (sample? : Option Value) :
    value.scalar? type sample? = some (.dateTime t) ↔
      value.scalar? type none = some (.dateTime t) := by
  unfold scalar?
  cases value.unwrap with
  | reference target =>
    dsimp only
    refine iff_of_false ?_ ?_ <;>
    · split <;> simp
  | _ => rfl

end Value

namespace Accessor

variable {accessor : Accessor} {row : Record} {t : Instant}

def ReadsInstant (accessor : Accessor) (row : Record) (t : Instant) : Prop :=
  Predicate.scalarOf accessor none row = some (.dateTime t)

theorem readsInstant_iff (sample? : Option Value) :
    Predicate.scalarOf accessor sample? row = some (.dateTime t) ↔ accessor.ReadsInstant row t := by
  unfold ReadsInstant Predicate.scalarOf
  simp only [Option.bind_eq_some_iff, Value.scalar?_eq_dateTime_iff sample?]

end Accessor

inductive Window where
  | between (low high : Instant)
  | before (cutoff : Instant)

namespace Window

def Takes : Window → Instant → Prop
  | between low high, t => low ≤ t ∧ t ≤ high
  | before cutoff, t => t < cutoff

def test : Window → ValueTest
  | between low high => .range (.dateTime low) (.dateTime high)
  | before cutoff => .compare .less (.dateTime cutoff)

theorem holds_test_iff (window : Window) (scalar : Scalar) :
    window.test.holds scalar = true ↔ ∃ t, scalar = .dateTime t ∧ window.Takes t := by
  cases scalar with
  | dateTime t =>
    have hafter (other : Instant) : Comparison.greaterEqual.holds (compare t other) = true ↔
        other ≤ t := bne_iff_ne.trans Instant.not_lt_iff
    cases window with
    | between low high =>
      simp only [test, ValueTest.holds, Scalar.order?, Option.map_some, Option.getD_some,
        Bool.and_eq_true, hafter, Scalar.dateTime.injEq, exists_eq_left', Takes]
      exact and_congr_right fun _ => bne_iff_ne
    | before cutoff =>
      simp only [test, ValueTest.holds, Scalar.order?, Option.map_some, Option.getD_some,
        Scalar.dateTime.injEq, exists_eq_left', Takes]
      exact beq_iff_eq
  | _ => cases window <;> simp [test, ValueTest.holds, Scalar.order?]

def said (window : Window) (condition : Condition) : Condition :=
  match window with
  | between low high => condition.betweenInstants low high
  | before cutoff => condition.derive (.compare .less) [.dateTime cutoff]

theorem said_injective {a b : Window} {condition : Condition}
    (h : a.said condition = b.said condition) : a = b := by
  have hvalues := congrArg Condition.values h
  have hoperator := congrArg Condition.operator h
  cases a with
  | between low high =>
    cases b with
    | between low' high' =>
      simp only [said, Condition.betweenInstants, Condition.derive, List.cons.injEq,
        Value.dateTime.injEq, and_true] at hvalues
      rw [hvalues.1, hvalues.2]
    | before cutoff => cases hoperator
  | before cutoff =>
    cases b with
    | between low high => cases hoperator
    | before cutoff' =>
      simp only [said, Condition.derive, List.cons.injEq, Value.dateTime.injEq, and_true] at hvalues
      rw [hvalues]

theorem compileOperator_said (window : Window) (condition : Condition) (context : Context)
    (accessor : Accessor) :
    ∃ t : Instant, (window.said condition).compileOperator context accessor
      (Value.flattenAll (window.said condition).values) true =
        .ok (.value accessor window.test false (some (.dateTime t))) := by
  cases window with
  | between low high => exact ⟨low, rfl⟩
  | before cutoff => exact ⟨cutoff, rfl⟩

theorem accepts_test_iff (window : Window) (accessor : Accessor) (sample? : Option Value)
    (row : Record) :
    (Predicate.value accessor window.test false sample?).Accepts row ↔
      ∃ t, accessor.ReadsInstant row t ∧ window.Takes t := by
  have hfaults (scalar : Scalar) : window.test.faults scalar = false := by
    cases window <;> rfl
  simp only [Predicate.accepts_iff, Predicate.faults, Predicate.admits,
    ← Accessor.readsInstant_iff sample?]
  cases Predicate.scalarOf accessor sample? row with
  | none => simp
  | some scalar => simp [hfaults, holds_test_iff]

end Window

namespace Condition

variable {condition derived : Condition} {present : Present} {values : List Value}

theorem eq_of_spanWindow {today : Date} {direction : Direction} {unit : SpanUnit} {n : Int}
    (h : condition.spanWindow present today direction unit n = .ok derived) :
    ∃ low high, derived = condition.betweenInstants low high := by
  unfold spanWindow at h
  dsimp only at h
  split at h
  all_goals
    obtain ⟨_, -, h⟩ := bind_eq_ok_iff.mp h
    exact ⟨_, _, (Except.ok.inj h).symm⟩

theorem eq_of_window? (h : condition.window? values present = .ok (some derived)) :
    (∃ turn day, condition.operator = .day turn ∧ derived = condition.onDay day) ∨
      ∃ window : Window, derived = window.said condition := by
  have hbetween : ∀ {low high : Instant},
      Except.ok (some (condition.betweenInstants low high)) =
        (.ok (some derived) : Except Error (Option Condition)) →
      ∃ window : Window, derived = window.said condition :=
    fun hsaid => ⟨.between _ _, (Option.some.inj (Except.ok.inj hsaid)).symm⟩
  have hdays : ∀ {bounds : Except Error (Date × Date)},
      (do return some (condition.withinDays present (← bounds))) = Except.ok (some derived) →
      ∃ window : Window, derived = window.said condition := by
    intro bounds hbounds
    obtain ⟨_, -, hbounds⟩ := bind_eq_ok_iff.mp hbounds
    exact hbetween hbounds
  unfold window? at h
  obtain ⟨today, -, h⟩ := bind_eq_ok_iff.mp h
  cases hoperator : condition.operator with
  | day turn =>
    rw [hoperator] at h
    obtain ⟨day, -, h⟩ := bind_eq_ok_iff.mp h
    exact .inl ⟨turn, day, rfl, (Option.some.inj (Except.ok.inj h)).symm⟩
  | sevenDays direction =>
    rw [hoperator] at h
    cases direction with
    | last | next =>
      obtain ⟨_, -, h⟩ := bind_eq_ok_iff.mp h
      exact .inr (hbetween h)
  | calendar turn unit | fiscal turn unit =>
    rw [hoperator] at h
    exact .inr (hdays h)
  | span direction unit =>
    rw [hoperator] at h
    obtain ⟨n, -, h⟩ := bind_eq_ok_iff.mp h
    obtain ⟨found, hfound, h⟩ := bind_eq_ok_iff.mp h
    obtain ⟨low, high, rfl⟩ := eq_of_spanWindow hfound
    exact .inr (hbetween h)
  | olderThan unit =>
    rw [hoperator] at h
    obtain ⟨n, -, h⟩ := bind_eq_ok_iff.mp h
    obtain ⟨cutoff, -, h⟩ := bind_eq_ok_iff.mp h
    exact .inr ⟨.before cutoff, (Option.some.inj (Except.ok.inj h)).symm⟩
  | fiscalSpan direction unit | inFiscalYear =>
    rw [hoperator] at h
    obtain ⟨n, -, h⟩ := bind_eq_ok_iff.mp h
    exact .inr (hdays h)
  | inFiscalPeriod =>
    rw [hoperator] at h
    obtain ⟨period, -, h⟩ := bind_eq_ok_iff.mp h
    obtain ⟨year, -, h⟩ := bind_eq_ok_iff.mp h
    exact .inr (hdays h)
  | fiscalPeriodAndYear reach =>
    rw [hoperator] at h
    obtain ⟨period, -, h⟩ := bind_eq_ok_iff.mp h
    obtain ⟨year, -, h⟩ := bind_eq_ok_iff.mp h
    obtain ⟨bounds, -, h⟩ := bind_eq_ok_iff.mp h
    cases reach with
    | within | orBefore | orAfter => exact .inr (hbetween h)
  | _ =>
    rw [hoperator] at h
    exact nomatch Except.ok.inj h

end Condition

end RecordQuery
