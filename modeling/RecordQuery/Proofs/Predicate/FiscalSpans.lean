import RecordQuery.Proofs.Calendar.PeriodMoves
import RecordQuery.Proofs.Calendar.Turns

namespace RecordQuery

namespace FiscalSettings

variable {settings : FiscalSettings} {year later : Int}

theorem edge_le (valid : settings.validate = .ok ()) (hfirst : -262143 ≤ year)
    (hlast : later + 1 < 262142) {j k : Nat} (hj : j ≤ settings.periods) (hk : k ≤ settings.periods)
    (hle : year < later ∨ (year = later ∧ j ≤ k)) :
    settings.edge year j ≤ settings.edge later k := by
  rcases hle with hlt | ⟨rfl, hjk⟩
  · calc settings.edge year j
      _ ≤ settings.edge year settings.periods :=
        edge_mono valid hfirst (by omega) hj (Nat.le_refl _)
      _ ≤ (settings.yearStart (year + 1)).number := edge_periods_le valid hfirst (by omega)
      _ ≤ (settings.yearStart later).number :=
        yearStart_mono valid (by unfold Date.firstYear; omega) (by omega)
          (by unfold Date.lastYear; omega)
      _ = settings.edge later 0 := (edge_zero settings later).symm
      _ ≤ settings.edge later k := edge_mono valid (by omega) hlast (Nat.zero_le k) hk
  · exact edge_mono valid hfirst hlast hjk hk

theorem containsYear_between {low mid high : Int} (hlow : settings.containsYear low = true)
    (hhigh : settings.containsYear high = true) (hle : low ≤ mid) (hle' : mid ≤ high) :
    settings.containsYear mid = true := by
  obtain ⟨hfirst, -⟩ := containsYear_spec hlow
  obtain ⟨-, hlast⟩ := containsYear_spec hhigh
  exact decide_eq_true (by unfold Date.firstYear Date.lastYear; omega)

end FiscalSettings

namespace Condition

open FiscalSettings

variable {condition : Condition} {settings : FiscalSettings} {today : Date}
variable {direction : Direction} {low mid high index : Int}

theorem fiscalYearBounds_eq_ok (valid : settings.validate = .ok ()) {year : Int}
    {days : Date × Date} (h : condition.fiscalYearBounds settings year = .ok days) :
    settings.containsYear year = true ∧ days.1 = settings.yearStart year ∧
      days.2.number + 1 = (settings.yearStart (year + 1)).number := by
  unfold fiscalYearBounds at h
  split at h
  · rename_i held
    obtain ⟨last, hbounds, hlast⟩ := yearBounds?_spec valid held
    obtain rfl := Except.ok.inj (hbounds.symm.trans h)
    exact ⟨held, rfl, hlast⟩
  · contradiction

theorem exists_fiscalYearBounds (condition : Condition) (valid : settings.validate = .ok ())
    {year : Int} (held : settings.containsYear year = true) :
    ∃ days, condition.fiscalYearBounds settings year = .ok days := by
  obtain ⟨last, hbounds, -⟩ := yearBounds?_spec valid held
  exact ⟨_, by rw [fiscalYearBounds, if_pos held, hbounds]⟩

theorem fiscalYearBounds_between (valid : settings.validate = .ok ()) {outer outer' : Date × Date}
    (hlow : condition.fiscalYearBounds settings low = .ok outer)
    (hhigh : condition.fiscalYearBounds settings high = .ok outer') (hle : low ≤ mid)
    (hle' : mid ≤ high) :
    ∃ days, condition.fiscalYearBounds settings mid = .ok days ∧ outer.1 ≤ days.1 ∧
      days.2 ≤ outer'.2 := by
  obtain ⟨held, hbegin, -⟩ := fiscalYearBounds_eq_ok valid hlow
  obtain ⟨held', -, hend⟩ := fiscalYearBounds_eq_ok valid hhigh
  have hmid := containsYear_between held held' hle hle'
  obtain ⟨days, hdays⟩ := condition.exists_fiscalYearBounds valid hmid
  obtain ⟨-, hfirst, hlast⟩ := fiscalYearBounds_eq_ok valid hdays
  obtain ⟨hbelow, -⟩ := containsYear_spec held
  obtain ⟨-, habove⟩ := containsYear_spec held'
  have hmono : (settings.yearStart (mid + 1)).number ≤ (settings.yearStart (high + 1)).number :=
    yearStart_mono valid (by unfold Date.firstYear; omega) (by omega)
      (by unfold Date.lastYear; omega)
  refine ⟨days, hdays, ?_, ?_⟩
  · rw [hbegin, hfirst]
    exact yearStart_mono valid hbelow hle (by unfold Date.lastYear; omega)
  · change days.2.number ≤ outer'.2.number
    omega

theorem fiscalPeriodBounds_eq_ok (valid : settings.validate = .ok ()) {days : Date × Date}
    (h : condition.fiscalPeriodBounds settings (settings.periodAt index) = .ok days) :
    settings.containsYear (settings.periodAt index).1 = true ∧
      days.1.number = settings.edge (settings.periodAt index).1
        ((settings.periodAt index).2 - 1) ∧
      days.2.number =
        settings.edge (settings.periodAt index).1 (settings.periodAt index).2 - 1 := by
  unfold fiscalPeriodBounds at h
  split at h
  · rename_i held
    obtain ⟨hfirst, hlast⟩ := containsYear_spec held
    obtain ⟨hp, hp'⟩ := settings.periodAt_spec index
    obtain ⟨first, last, hbounds, hedges⟩ :=
      periodBounds?_spec valid hfirst (by omega) hp hp'
    obtain rfl := Except.ok.inj (hbounds.symm.trans h)
    exact ⟨held, hedges⟩
  · contradiction

theorem exists_fiscalPeriodBounds (condition : Condition) (valid : settings.validate = .ok ())
    (held : settings.containsYear (settings.periodAt index).1 = true) :
    ∃ days, condition.fiscalPeriodBounds settings (settings.periodAt index) = .ok days := by
  obtain ⟨hfirst, hlast⟩ := containsYear_spec held
  obtain ⟨hp, hp'⟩ := settings.periodAt_spec index
  obtain ⟨first, last, hbounds, -⟩ := periodBounds?_spec valid hfirst (by omega) hp hp'
  exact ⟨_, by rw [fiscalPeriodBounds, if_pos held, hbounds]⟩

theorem fiscalPeriodBounds_between (valid : settings.validate = .ok ())
    {outer outer' : Date × Date}
    (hlow : condition.fiscalPeriodBounds settings (settings.periodAt low) = .ok outer)
    (hhigh : condition.fiscalPeriodBounds settings (settings.periodAt high) = .ok outer')
    (hle : low ≤ mid) (hle' : mid ≤ high) :
    ∃ days, condition.fiscalPeriodBounds settings (settings.periodAt mid) = .ok days ∧
      outer.1 ≤ days.1 ∧ days.2 ≤ outer'.2 := by
  obtain ⟨held, hbegin, -⟩ := fiscalPeriodBounds_eq_ok valid hlow
  obtain ⟨held', -, hend⟩ := fiscalPeriodBounds_eq_ok valid hhigh
  obtain ⟨hp, hp'⟩ := settings.periodAt_spec low
  obtain ⟨hq, hq'⟩ := settings.periodAt_spec mid
  obtain ⟨-, hr'⟩ := settings.periodAt_spec high
  have hstep := settings.periodAt_mono hle
  have hstep' := settings.periodAt_mono hle'
  have hmid : settings.containsYear (settings.periodAt mid).1 = true :=
    containsYear_between held held' (by omega) (by omega)
  obtain ⟨days, hdays⟩ := condition.exists_fiscalPeriodBounds valid hmid
  obtain ⟨-, hfirst, hlast⟩ := fiscalPeriodBounds_eq_ok valid hdays
  obtain ⟨hbelow, -⟩ := containsYear_spec held
  obtain ⟨hbelow', habove⟩ := containsYear_spec hmid
  obtain ⟨-, habove'⟩ := containsYear_spec held'
  refine ⟨days, hdays, ?_, ?_⟩
  · change outer.1.number ≤ days.1.number
    rw [hbegin, hfirst]
    exact edge_le valid hbelow (by omega) (by omega) (by omega) (by omega)
  · have hedge := edge_le valid hbelow' (show (settings.periodAt high).1 + 1 < 262142 by omega)
      hq' hr' (by omega)
    change days.2.number ≤ outer'.2.number
    omega

def spanEnds (direction : Direction) (n : Int) : Int × Int :=
  match direction with
  | .last => (-n, -1)
  | .next => (1, n)

theorem spanEnds_between (direction : Direction) {x y : Int} (hx : 1 ≤ x) (hle : x ≤ y) :
    (spanEnds direction y).1 ≤ (spanEnds direction x).1 ∧
      (spanEnds direction x).1 ≤ (spanEnds direction x).2 ∧
      (spanEnds direction x).2 ≤ (spanEnds direction y).2 := by
  cases direction <;>
  · simp only [spanEnds]
    omega

theorem fiscalSpanDays_year (n : Int) :
    condition.fiscalSpanDays settings today direction n .year =
      if signedLimit32 ≤ n then .error condition.beyondCalendar
      else do
        let year ← settings.yearOf? today
        return ((← condition.fiscalYearBounds settings (year + (spanEnds direction n).1)).1,
          (← condition.fiscalYearBounds settings (year + (spanEnds direction n).2)).2) := by
  cases direction <;>
  · unfold fiscalSpanDays spanEnds
    dsimp only
    split <;> rfl

theorem fiscalSpanDays_period (n : Int) :
    condition.fiscalSpanDays settings today direction n .period = (do
      let current ← settings.periodOf? today
      let firstTarget ← condition.offsetPeriod settings current (spanEnds direction n).1
      let lastTarget ← condition.offsetPeriod settings current (spanEnds direction n).2
      return ((← condition.fiscalPeriodBounds settings firstTarget).1,
        (← condition.fiscalPeriodBounds settings lastTarget).2)) := by
  cases direction <;> rfl

theorem inCalendar_eq_ok_iff {α : Type} {found? : Option α} {found : α} :
    condition.inCalendar found? = .ok found ↔ found? = some found := by
  cases found? <;> simp [inCalendar]

theorem offsetPeriod_eq_ok_iff {period target : Int × Nat} {delta : Int} :
    condition.offsetPeriod settings period delta = .ok target ↔
      FitsInt32 target.1 ∧ target = settings.periodAt (settings.periodIndex period + delta) := by
  rw [offsetPeriod, inCalendar_eq_ok_iff, offsetPeriod?_eq_some_iff]

theorem fiscalSpanDays_mono (valid : settings.validate = .ok ()) {x y : Int} {unit : FiscalUnit}
    {outer : Date × Date} (hx : 1 ≤ x) (hle : x ≤ y)
    (h : condition.fiscalSpanDays settings today direction y unit = .ok outer) :
    ∃ inner, condition.fiscalSpanDays settings today direction x unit = .ok inner ∧
      outer.1 ≤ inner.1 ∧ inner.2 ≤ outer.2 := by
  obtain ⟨hlow, hmid, hhigh⟩ := spanEnds_between direction hx hle
  cases unit with
  | year =>
    rw [fiscalSpanDays_year] at h ⊢
    split at h
    · contradiction
    · rename_i hsmall
      obtain ⟨year, hyear, h⟩ := bind_eq_ok_iff.mp h
      obtain ⟨begins, hbegins, h⟩ := bind_eq_ok_iff.mp h
      obtain ⟨ends, hends, h⟩ := bind_eq_ok_iff.mp h
      obtain rfl := Except.ok.inj h
      obtain ⟨first, hfirst, hbegin, -⟩ := fiscalYearBounds_between valid hbegins hends
        (show _ ≤ year + (spanEnds direction x).1 by omega) (by omega)
      obtain ⟨last, hlast, -, hend⟩ := fiscalYearBounds_between valid hbegins hends
        (show _ ≤ year + (spanEnds direction x).2 by omega) (by omega)
      refine ⟨(first.1, last.2), ?_, hbegin, hend⟩
      rw [if_neg (by omega), hyear, ok_bind, hfirst, ok_bind, hlast]
      rfl
  | period =>
    rw [fiscalSpanDays_period] at h ⊢
    obtain ⟨current, hcurrent, h⟩ := bind_eq_ok_iff.mp h
    obtain ⟨firstTarget, hfirstTarget, h⟩ := bind_eq_ok_iff.mp h
    obtain ⟨lastTarget, hlastTarget, h⟩ := bind_eq_ok_iff.mp h
    obtain ⟨begins, hbegins, h⟩ := bind_eq_ok_iff.mp h
    obtain ⟨ends, hends, h⟩ := bind_eq_ok_iff.mp h
    obtain rfl := Except.ok.inj h
    obtain ⟨hfits, rfl⟩ := offsetPeriod_eq_ok_iff.mp hfirstTarget
    obtain ⟨hfits', rfl⟩ := offsetPeriod_eq_ok_iff.mp hlastTarget
    -- The years between those of the two ends fit into 32 bits, as these do.
    have hreach : ∀ delta, (spanEnds direction y).1 ≤ delta → delta ≤ (spanEnds direction y).2 →
        condition.offsetPeriod settings current delta =
          .ok (settings.periodAt (settings.periodIndex current + delta)) := by
      intro delta hle hle'
      have hstep := settings.periodAt_mono (Int.add_le_add_left hle
        (settings.periodIndex current))
      have hstep' := settings.periodAt_mono (Int.add_le_add_left hle'
        (settings.periodIndex current))
      exact offsetPeriod_eq_ok_iff.mpr ⟨⟨by omega, by omega⟩, rfl⟩
    obtain ⟨first, hfirst, hbegin, -⟩ := fiscalPeriodBounds_between valid hbegins hends
      (Int.add_le_add_left hlow _) (Int.add_le_add_left (hmid.trans hhigh) _)
    obtain ⟨last, hlast, -, hend⟩ := fiscalPeriodBounds_between valid hbegins hends
      (Int.add_le_add_left (hlow.trans hmid) _) (Int.add_le_add_left hhigh _)
    refine ⟨(first.1, last.2), ?_, hbegin, hend⟩
    rw [hcurrent, ok_bind, hreach _ (by omega) (by omega), ok_bind, hreach _ (by omega) (by omega),
      ok_bind, hfirst, ok_bind, hlast]
    rfl

end Condition

end RecordQuery
