import RecordQuery.Proofs.Predicate.FiscalSpans
import RecordQuery.Proofs.Predicate.WindowForms

namespace RecordQuery

namespace Window

variable {a b : Window}

def Within : Window → Window → Prop
  | between low high, between low' high' => low' ≤ low ∧ high ≤ high'
  | before cutoff, before cutoff' => cutoff ≤ cutoff'
  | _, _ => False

theorem Within.takes (h : a.Within b) {t : Instant} (ht : a.Takes t) : b.Takes t := by
  cases a with
  | between low high =>
    cases b with
    | between low' high' => exact ⟨le_trans h.1 ht.1, le_trans ht.2 h.2⟩
    | before cutoff => exact h.elim
  | before cutoff =>
    cases b with
    | between low high => exact h.elim
    | before cutoff' => exact lt_of_lt_of_le ht h

end Window

namespace Condition

def WindowImplies (a b : Condition) : Prop :=
  ∀ (context : Context) (accessor : Accessor), ∃ p q,
    a.compileOperator context accessor (Value.flattenAll a.values) true = .ok p ∧
    b.compileOperator context accessor (Value.flattenAll b.values) true = .ok q ∧
    ∀ row, p.Accepts row → q.Accepts row

end Condition

theorem Window.Within.implies {a b : Window} (h : a.Within b) (condition : Condition) :
    (a.said condition).WindowImplies (b.said condition) := by
  intro context accessor
  obtain ⟨s, hs⟩ := a.compileOperator_said condition context accessor
  obtain ⟨t, ht⟩ := b.compileOperator_said condition context accessor
  refine ⟨_, _, hs, ht, fun row hrow => ?_⟩
  rw [accepts_test_iff] at hrow ⊢
  obtain ⟨instant, hscalar, htakes⟩ := hrow
  exact ⟨instant, hscalar, h.takes htakes⟩

namespace Operator

def leastCount? : Operator → Option Nat
  | .span _ _ => some 0
  | .olderThan _ | .fiscalSpan _ _ => some 1
  | _ => none

def isAge : Operator → Bool
  | .olderThan _ => true
  | _ => false

end Operator

namespace Condition

variable {condition : Condition} {present : Present} {today : Date} {few many : List Value}
variable {x y : Int} {wider : Condition}

theorem stepwise_shiftDay? (today : Date) (unit : SpanUnit) :
    Stepwise fun n => shiftDay? today unit n := by
  cases unit with
  | hours =>
    exact ⟨fun _ _ => ⟨today, rfl⟩, fun _ hnear hfar => by
      obtain rfl := Option.some.inj hnear
      obtain rfl := Option.some.inj hfar
      exact Int.le_refl _⟩
  | days => exact today.stepwise_addDays?
  | weeks => exact today.stepwise_addDays?.scale 7
  | months => exact today.stepwise_addMonths?
  | years => exact today.stepwise_addMonths?.scale 12

theorem stepwise_shiftInstant? (t : Instant) (unit : AgeUnit) :
    Stepwise fun n => shiftInstant? t unit n := by
  cases unit with
  | minutes => exact t.stepwise_addSeconds?.scale 60
  | span unit =>
    cases unit with
    | hours => exact t.stepwise_addSeconds?.scale 3600
    | days => exact t.stepwise_addSeconds?.scale 86400
    | weeks => exact t.stepwise_addSeconds?.scale 604800
    | months => exact t.stepwise_addMonths?
    | years => exact t.stepwise_addMonths?.scale 12

theorem countOperand_bounds {values : List Value} {least : Nat}
    (h : condition.countOperand values least = .ok x) : least ≤ x ∧ x < signedLimit64 := by
  unfold countOperand at h
  split at h
  · rename_i n hn
    obtain rfl := Except.ok.inj h
    obtain ⟨operand, -, hn⟩ := Option.bind_eq_some_iff.mp hn
    dsimp only at hn
    split at hn
    · contradiction
    · obtain rfl := Option.some.inj hn
      exact ⟨by omega, operand.wholeNumber.toInt_lt⟩
  · contradiction

theorem spanWindow_last {unit : SpanUnit} (hunit : unit ≠ .hours) (n : Int) :
    condition.spanWindow present today .last unit n = (do
      return condition.betweenInstants
        (.startOfDay (← condition.inCalendar (shiftDay? today unit (-n))) present.offset)
        present.now) := by
  cases unit with
  | hours => contradiction
  | _ => rfl

theorem spanWindow_next {unit : SpanUnit} (hunit : unit ≠ .hours) (n : Int) :
    condition.spanWindow present today .next unit n = (do
      return condition.betweenInstants present.now
        (.endOfDay (← condition.inCalendar (shiftDay? today unit n)) present.offset)) := by
  cases unit with
  | hours => contradiction
  | _ => rfl

theorem spanWindow_mono {direction : Direction} {unit : SpanUnit} (hx : 0 ≤ x) (hle : x ≤ y)
    (h : condition.spanWindow present today direction unit y = .ok wider) :
    ∃ small large : Window,
      condition.spanWindow present today direction unit x = .ok (small.said condition) ∧
      wider = large.said condition ∧ small.Within large := by
  by_cases hunit : unit = .hours
  · subst hunit
    have hsteps := stepwise_shiftInstant? present.now (.span .hours)
    cases direction with
    | last =>
      obtain ⟨far, hfar, h⟩ := bind_eq_ok_iff.mp h
      obtain rfl := Except.ok.inj h
      obtain ⟨near, hnear, hmono⟩ := hsteps.backward hx hle (inCalendar_eq_ok_iff.mp hfar)
      refine ⟨.between near present.now, .between far present.now, ?_, rfl, hmono, le_refl _⟩
      exact bind_eq_ok_iff.mpr ⟨near, inCalendar_eq_ok_iff.mpr hnear, rfl⟩
    | next =>
      obtain ⟨far, hfar, h⟩ := bind_eq_ok_iff.mp h
      obtain rfl := Except.ok.inj h
      obtain ⟨near, hnear, hmono⟩ := hsteps.forward hx hle (inCalendar_eq_ok_iff.mp hfar)
      refine ⟨.between present.now near, .between present.now far, ?_, rfl, le_refl _, hmono⟩
      exact bind_eq_ok_iff.mpr ⟨near, inCalendar_eq_ok_iff.mpr hnear, rfl⟩
  · have hsteps := stepwise_shiftDay? today unit
    cases direction with
    | last =>
      rw [spanWindow_last hunit] at h ⊢
      obtain ⟨far, hfar, h⟩ := bind_eq_ok_iff.mp h
      obtain rfl := Except.ok.inj h
      obtain ⟨near, hnear, hmono⟩ := hsteps.backward hx hle (inCalendar_eq_ok_iff.mp hfar)
      refine ⟨.between (.startOfDay near present.offset) present.now,
        .between (.startOfDay far present.offset) present.now, ?_, rfl,
        Instant.startOfDay_mono _ hmono, le_refl _⟩
      exact bind_eq_ok_iff.mpr ⟨near, inCalendar_eq_ok_iff.mpr hnear, rfl⟩
    | next =>
      rw [spanWindow_next hunit] at h ⊢
      obtain ⟨far, hfar, h⟩ := bind_eq_ok_iff.mp h
      obtain rfl := Except.ok.inj h
      obtain ⟨near, hnear, hmono⟩ := hsteps.forward hx hle (inCalendar_eq_ok_iff.mp hfar)
      refine ⟨.between present.now (.endOfDay near present.offset),
        .between present.now (.endOfDay far present.offset), ?_, rfl, le_refl _,
        Instant.endOfDay_mono _ hmono⟩
      exact bind_eq_ok_iff.mpr ⟨near, inCalendar_eq_ok_iff.mpr hnear, rfl⟩

theorem withinDays_within (condition : Condition) (present : Present) {inner outer : Date × Date}
    (hfirst : outer.1 ≤ inner.1) (hlast : inner.2 ≤ outer.2) :
    ∃ small large : Window,
      condition.withinDays present inner = small.said condition ∧
      condition.withinDays present outer = large.said condition ∧ small.Within large :=
  ⟨.between (.startOfDay inner.1 present.offset) (.endOfDay inner.2 present.offset),
    .between (.startOfDay outer.1 present.offset) (.endOfDay outer.2 present.offset), rfl, rfl,
    Instant.startOfDay_mono _ hfirst, Instant.endOfDay_mono _ hlast⟩

/-- A window that reaches from the present grows with its count, and an age sets its cutoff the
earlier the greater it is. -/
theorem window?_mono_count (valid : present.fiscal.validate = .ok ()) {least : Nat}
    (counted : condition.operator.leastCount? = some least)
    (hfew : condition.countOperand few least = .ok x)
    (hmany : condition.countOperand many least = .ok y) (hle : x ≤ y)
    (rewrites : condition.window? many present = .ok (some wider)) :
    ∃ small large : Window,
      condition.window? few present = .ok (some (small.said condition)) ∧
      wider = large.said condition ∧
      (condition.operator.isAge = false →
        small.Within large ∧ (small.said condition).WindowImplies (large.said condition)) ∧
      (condition.operator.isAge = true →
        large.Within small ∧ (large.said condition).WindowImplies (small.said condition)) := by
  obtain ⟨hleast, -⟩ := countOperand_bounds hfew
  obtain ⟨today, htoday, h⟩ := bind_eq_ok_iff.mp rewrites
  unfold window?
  rw [htoday, ok_bind]
  cases hoperator : condition.operator with
  | span direction unit =>
    rw [hoperator] at counted h
    obtain rfl := Option.some.inj counted
    obtain ⟨n, hn, h⟩ := bind_eq_ok_iff.mp h
    obtain rfl := Except.ok.inj (hmany.symm.trans hn)
    obtain ⟨found, hfound, h⟩ := bind_eq_ok_iff.mp h
    obtain rfl := Option.some.inj (Except.ok.inj h)
    obtain ⟨small, large, hsmall, hlarge, hwithin⟩ := spanWindow_mono hleast hle hfound
    refine ⟨small, large, ?_, hlarge, fun _ => ⟨hwithin, hwithin.implies condition⟩,
      (nomatch ·)⟩
    exact bind_eq_ok_iff.mpr ⟨x, hfew, bind_eq_ok_iff.mpr ⟨_, hsmall, rfl⟩⟩
  | olderThan unit =>
    rw [hoperator] at counted h
    obtain rfl := Option.some.inj counted
    obtain ⟨n, hn, h⟩ := bind_eq_ok_iff.mp h
    obtain rfl := Except.ok.inj (hmany.symm.trans hn)
    obtain ⟨cutoff, hcutoff, h⟩ := bind_eq_ok_iff.mp h
    obtain rfl := Option.some.inj (Except.ok.inj h)
    obtain ⟨later, hlater, hmono⟩ := (stepwise_shiftInstant? present.now unit).backward
      (show 0 ≤ x by omega) hle (inCalendar_eq_ok_iff.mp hcutoff)
    have hwithin : (Window.before cutoff).Within (.before later) := hmono
    refine ⟨.before later, .before cutoff, ?_, rfl, (nomatch ·),
      fun _ => ⟨hwithin, hwithin.implies condition⟩⟩
    exact bind_eq_ok_iff.mpr ⟨x, hfew,
      bind_eq_ok_iff.mpr ⟨later, inCalendar_eq_ok_iff.mpr hlater, rfl⟩⟩
  | fiscalSpan direction unit =>
    rw [hoperator] at counted h
    obtain rfl := Option.some.inj counted
    obtain ⟨n, hn, h⟩ := bind_eq_ok_iff.mp h
    obtain rfl := Except.ok.inj (hmany.symm.trans hn)
    obtain ⟨outer, houter, h⟩ := bind_eq_ok_iff.mp h
    obtain rfl := Option.some.inj (Except.ok.inj h)
    obtain ⟨inner, hinner, hfirst, hlast⟩ := fiscalSpanDays_mono valid hleast hle houter
    obtain ⟨small, large, hsmall, hlarge, hwithin⟩ :=
      condition.withinDays_within present hfirst hlast
    refine ⟨small, large, ?_, hlarge, fun _ => ⟨hwithin, hwithin.implies condition⟩,
      (nomatch ·)⟩
    exact bind_eq_ok_iff.mpr ⟨x, hfew, bind_eq_ok_iff.mpr ⟨inner, hinner,
      congrArg (Except.ok ∘ some) hsmall⟩⟩
  | _ =>
    rw [hoperator] at counted
    contradiction

theorem window?_mono_count_quarters :
    let present : Present :=
      ⟨⟨⟨2024, 2, 28, by decide⟩, 84600, 0, by decide, by decide⟩, ⟨7200, by decide⟩,
        ⟨2, 30, .quarterly⟩⟩
    let condition : Condition := ⟨"createdon", none, .fiscalSpan .last .period, [], none, false⟩
    let small : Window := .between (.startOfDay ⟨2023, 11, 28, by decide⟩ present.offset)
      (.endOfDay ⟨2024, 2, 27, by decide⟩ present.offset)
    let large : Window := .between (.startOfDay ⟨2022, 11, 28, by decide⟩ present.offset)
      (.endOfDay ⟨2024, 2, 27, by decide⟩ present.offset)
    present.fiscal.validate = .ok () ∧ condition.operator.leastCount? = some 1 ∧
      condition.countOperand [.int 1] 1 = .ok 1 ∧ condition.countOperand [.int 5] 1 = .ok 5 ∧
      condition.window? [.int 1] present = .ok (some (small.said condition)) ∧
      condition.window? [.int 5] present = .ok (some (large.said condition)) ∧
      small.Within large ∧ ¬ large.Within small := by
  intro present condition small large
  have valid : present.fiscal.validate = .ok () := rfl
  have counted : condition.operator.leastCount? = some 1 := rfl
  have hfew : condition.countOperand [.int 1] 1 = .ok 1 := rfl
  have hmany : condition.countOperand [.int 5] 1 = .ok 5 := rfl
  have htoday : present.today = .ok ⟨2024, 2, 29, by decide⟩ := by decide
  have hlast : condition.fiscalSpanDays present.fiscal ⟨2024, 2, 29, by decide⟩ .last 1 .period =
      .ok (⟨2023, 11, 28, by decide⟩, ⟨2024, 2, 27, by decide⟩) := by decide
  have hlastFive : condition.fiscalSpanDays present.fiscal ⟨2024, 2, 29, by decide⟩ .last 5
      .period = .ok (⟨2022, 11, 28, by decide⟩, ⟨2024, 2, 27, by decide⟩) := by decide
  have hone : condition.window? [.int 1] present = .ok (some (small.said condition)) :=
    bind_eq_ok_iff.mpr ⟨_, htoday, bind_eq_ok_iff.mpr ⟨1, hfew, bind_eq_ok_iff.mpr
      ⟨_, hlast, rfl⟩⟩⟩
  have hfive : condition.window? [.int 5] present = .ok (some (large.said condition)) :=
    bind_eq_ok_iff.mpr ⟨_, htoday, bind_eq_ok_iff.mpr ⟨5, hmany, bind_eq_ok_iff.mpr
      ⟨_, hlastFive, rfl⟩⟩⟩
  obtain ⟨inner, outer, hinner, houter, hgrows, -⟩ :=
    window?_mono_count valid counted hfew hmany (by decide) hfive
  obtain rfl := Window.said_injective (Option.some.inj (Except.ok.inj (hone.symm.trans hinner)))
  obtain rfl := Window.said_injective houter
  have hstrict : ¬ large.Within small := by
    unfold Window.Within
    decide
  exact ⟨valid, counted, hfew, hmany, hone, hfive, (hgrows rfl).1, hstrict⟩

end Condition

end RecordQuery
