import RecordQuery.Proofs.Calendar.Words

/-!
The periods of all fiscal years in a row, each with a number, and moves along the row. A move adds
to the number, and leads to a period for as long as 32 bits hold the year of that.
-/

namespace RecordQuery.FiscalSettings

def periodIndex (settings : FiscalSettings) (period : Int × Nat) : Int :=
  period.1 * settings.periods + period.2 - 1

def periodAt (settings : FiscalSettings) (index : Int) : Int × Nat :=
  (index / settings.periods, (index % settings.periods).toNat + 1)

variable {settings : FiscalSettings} {year delta first : Int} {period : Nat}
variable {target : Int × Nat}

theorem periodAt_spec (settings : FiscalSettings) (index : Int) :
    1 ≤ (settings.periodAt index).2 ∧ (settings.periodAt index).2 ≤ settings.periods := by
  have hpos : 0 < settings.periods := settings.template.periods_pos
  have hmod := Int.emod_nonneg index (show (settings.periods : Int) ≠ 0 by omega)
  have hlt := Int.emod_lt_of_pos index (show 0 < (settings.periods : Int) by omega)
  unfold periodAt
  omega

theorem periodAt_mono (settings : FiscalSettings) {low high : Int} (hle : low ≤ high) :
    (settings.periodAt low).1 < (settings.periodAt high).1 ∨
      ((settings.periodAt low).1 = (settings.periodAt high).1 ∧
        (settings.periodAt low).2 ≤ (settings.periodAt high).2) := by
  have hpos : 0 < settings.periods := settings.template.periods_pos
  have hmod := Int.emod_nonneg low (show (settings.periods : Int) ≠ 0 by omega)
  have hdiv : low / settings.periods ≤ high / settings.periods :=
    Int.ediv_le_ediv (by omega) hle
  have hlow := Int.emod_add_mul_ediv low settings.periods
  have hhigh := Int.emod_add_mul_ediv high settings.periods
  unfold periodAt
  rcases Int.lt_or_eq_of_le hdiv with hlt | heq
  · exact .inl hlt
  · rw [heq] at hlow
    exact .inr ⟨heq, by omega⟩

theorem periodIndex_periodAt (settings : FiscalSettings) (index : Int) :
    settings.periodIndex (settings.periodAt index) = index := by
  have hpos : 0 < settings.periods := settings.template.periods_pos
  have hmod := Int.emod_nonneg index (show (settings.periods : Int) ≠ 0 by omega)
  have hsplit := Int.ediv_mul_add_emod index settings.periods
  unfold periodIndex periodAt
  dsimp only
  omega

theorem periodAt_periodIndex (hp : 1 ≤ period) (hp' : period ≤ settings.periods) :
    settings.periodAt (settings.periodIndex (year, period)) = (year, period) := by
  have hindex : settings.periodIndex (year, period) =
      (period - 1 : Int) + year * settings.periods := by
    unfold periodIndex
    dsimp only
    omega
  have hlow : 0 ≤ (period : Int) - 1 := by omega
  have hhigh : (period : Int) - 1 < settings.periods := by omega
  unfold periodAt
  rw [hindex, Int.add_mul_ediv_right _ _ (by omega), Int.ediv_eq_zero_of_lt hlow hhigh,
    Int.add_mul_emod_self_right, Int.emod_eq_of_lt hlow hhigh]
  simp only [Prod.mk.injEq]
  omega

theorem periodAt_strictMono (settings : FiscalSettings) {low high : Int} (hlt : low < high) :
    (settings.periodAt low).1 < (settings.periodAt high).1 ∨
      ((settings.periodAt low).1 = (settings.periodAt high).1 ∧
        (settings.periodAt low).2 < (settings.periodAt high).2) := by
  rcases settings.periodAt_mono (le_of_lt hlt) with hyear | ⟨hyear, hperiod⟩
  · exact .inl hyear
  · -- Equal periods would have equal numbers.
    refine .inr ⟨hyear, Nat.lt_of_le_of_ne hperiod fun heq => ?_⟩
    have hsame := congrArg settings.periodIndex (Prod.ext hyear heq)
    rw [periodIndex_periodAt, periodIndex_periodAt] at hsame
    omega

theorem offsetPeriod?_eq_some_iff : settings.offsetPeriod? year period delta = some target ↔
    FitsInt32 target.1 ∧
      target = settings.periodAt (settings.periodIndex (year, period) + delta) := by
  unfold offsetPeriod? periodAt periodIndex
  dsimp only
  constructor
  · intro h
    split at h
    · rename_i hfits
      obtain rfl := Option.some.inj h
      exact ⟨hfits, rfl⟩
    · contradiction
  · rintro ⟨hfits, rfl⟩
    rw [if_pos hfits]

theorem offsetPeriod?_congr {other : Int × Nat} {step : Int}
    (h : settings.periodIndex (year, period) + delta = settings.periodIndex other + step) :
    settings.offsetPeriod? year period delta = settings.offsetPeriod? other.1 other.2 step := by
  apply Option.ext
  intro target
  rw [offsetPeriod?_eq_some_iff, offsetPeriod?_eq_some_iff, h]

theorem offsetPeriod?_add (h : settings.offsetPeriod? year period first = some target)
    (second : Int) :
    settings.offsetPeriod? target.1 target.2 second =
      settings.offsetPeriod? year period (first + second) := by
  obtain ⟨-, rfl⟩ := offsetPeriod?_eq_some_iff.mp h
  symm
  apply offsetPeriod?_congr
  rw [periodIndex_periodAt]
  omega

theorem offsetPeriod?_zero (hyear : FitsInt32 year) (hp : 1 ≤ period)
    (hp' : period ≤ settings.periods) :
    settings.offsetPeriod? year period 0 = some (year, period) := by
  rw [offsetPeriod?_eq_some_iff, Int.add_zero, periodAt_periodIndex hp hp']
  exact ⟨hyear, rfl⟩

theorem offsetPeriod?_later (hp : 1 ≤ period) (hp' : period ≤ settings.periods)
    (h : settings.offsetPeriod? year period delta = some target) (hpos : 0 < delta) :
    year < target.1 ∨ (year = target.1 ∧ period < target.2) := by
  obtain ⟨-, rfl⟩ := offsetPeriod?_eq_some_iff.mp h
  have hlater := settings.periodAt_strictMono
    (Int.lt_add_of_pos_right (settings.periodIndex (year, period)) hpos)
  rwa [periodAt_periodIndex hp hp'] at hlater

/-- Moves by periods add up, whether or not what they lead to is in reach. A move by none stays, a
move back undoes a move, and one by more than none leads to a later period. No number on the way
leaves its word without being checked for it. -/
theorem offsetPeriod?_action (hyear : FitsInt32 year) (hp : 1 ≤ period)
    (hp' : period ≤ settings.periods) (first : Int) :
    settings.offsetPeriodInWords year period first =
        .ok (settings.offsetPeriod? year period first) ∧
      settings.offsetPeriod? year period 0 = some (year, period) ∧
      ∀ target next, settings.offsetPeriod? year period first = some (target, next) →
        FitsInt32 target ∧ 1 ≤ next ∧ next ≤ settings.periods ∧
          (∀ second, settings.offsetPeriod? target next second =
            settings.offsetPeriod? year period (first + second)) ∧
          settings.offsetPeriod? target next (-first) = some (year, period) ∧
          (0 < first → year < target ∨ (year = target ∧ period < next)) := by
  have hperiods := settings.periods_le
  have hzero := offsetPeriod?_zero hyear hp hp'
  have hword : period < limit32 := by
    unfold limit32
    omega
  refine ⟨offsetPeriodInWords_eq hyear.1 hyear.2 hword first, hzero, fun target next h => ?_⟩
  obtain ⟨hfits, htarget⟩ := offsetPeriod?_eq_some_iff.mp h
  have hrange := settings.periodAt_spec (settings.periodIndex (year, period) + first)
  rw [← htarget] at hrange
  have hadd := offsetPeriod?_add h
  have hback : settings.offsetPeriod? target next (-first) = some (year, period) := by
    rw [hadd, Int.add_right_neg, hzero]
  exact ⟨hfits, hrange.1, hrange.2, hadd, hback, offsetPeriod?_later hp hp' h⟩

theorem offsetPeriod?_action_fourWeek :
    let settings : FiscalSettings := ⟨4, 1, .fourWeek⟩
    FitsInt32 (-2147483648) ∧
      settings.offsetPeriod? (-2147483648) 1 14 = some (-2147483647, 2) ∧
      settings.offsetPeriod? (-2147483647) 2 (-14) = some (-2147483648, 1) ∧
      settings.offsetPeriod? (-2147483647) 2 (-15) =
        settings.offsetPeriod? (-2147483648) 1 (14 + -15) ∧
      settings.offsetPeriod? (-2147483648) 1 (14 + -15) = none := by
  intro settings
  have hyear : FitsInt32 (-2147483648) := by decide
  have hmove : settings.offsetPeriod? (-2147483648) 1 14 = some (-2147483647, 2) := by decide
  have hperiod : 1 ≤ settings.periods := by decide
  obtain ⟨-, -, hall⟩ := offsetPeriod?_action hyear (Nat.le_refl 1) hperiod 14
  obtain ⟨-, -, -, hadd, hback, -⟩ := hall _ _ hmove
  exact ⟨hyear, hmove, hback, hadd (-15), by decide⟩

end RecordQuery.FiscalSettings
