import RecordQuery.Proofs.Calendar.FiscalPeriods
import RecordQuery.Proofs.Calendar.Turns

namespace RecordQuery.FiscalSettings

variable {settings : FiscalSettings} {year : Int} {first last : Date}

theorem yearBounds?_eq_ok (valid : settings.validate = .ok ())
    (held : settings.containsYear year = true)
    (hbounds : settings.yearBounds? year = .ok (first, last)) :
    first = settings.yearStart year ∧
      last.number + 1 = (settings.yearStart (year + 1)).number := by
  obtain ⟨finish, hspec, hfinish⟩ := yearBounds?_spec valid held
  rw [hbounds] at hspec
  obtain ⟨rfl, rfl⟩ := Prod.mk.inj (Except.ok.inj hspec)
  exact ⟨rfl, hfinish⟩

theorem yearOf?_eq_ok_iff (valid : settings.validate = .ok ())
    (held : settings.containsYear year = true)
    (hbounds : settings.yearBounds? year = .ok (first, last)) (date : Date) :
    settings.yearOf? date = .ok year ↔ first ≤ date ∧ date ≤ last := by
  obtain ⟨hfirst, hlast⟩ := containsYear_spec held
  obtain ⟨rfl, hend⟩ := yearBounds?_eq_ok valid held hbounds
  have hbefore : date ≤ last ↔ date < settings.yearStart (year + 1) := by
    change date.number ≤ last.number ↔ date.number < (settings.yearStart (year + 1)).number
    omega
  rw [yearOf?_eq valid, Except.ok.injEq, yearOf_eq_iff valid hfirst (by omega), hbefore]

theorem addDays?_yearStart_succ (valid : settings.validate = .ok ())
    (held : settings.containsYear year = true)
    (hbounds : settings.yearBounds? year = .ok (first, last)) :
    ∃ next, settings.yearStart? (year + 1) = .ok next ∧ next.addDays? (-1) = some last := by
  obtain ⟨-, hlast⟩ := containsYear_spec held
  obtain ⟨-, hend⟩ := yearBounds?_eq_ok valid held hbounds
  refine ⟨settings.yearStart (year + 1), guarded_eq valid (by simp; omega) _, ?_⟩
  rw [Date.addDays?_eq_some_iff]
  omega

theorem periodBounds?_within (valid : settings.validate = .ok ())
    (held : settings.containsYear year = true)
    (hbounds : settings.yearBounds? year = .ok (first, last)) {period : Nat} (hp : 1 ≤ period)
    (hp' : period ≤ settings.periods) :
    ∃ start finish, settings.periodBounds? year period = .ok (start, finish) ∧
      first ≤ start ∧ start ≤ finish ∧ finish ≤ last := by
  obtain ⟨hfirst, hlast⟩ := containsYear_spec held
  have hlast' : year + 1 < 262142 := by omega
  obtain ⟨rfl, hend⟩ := yearBounds?_eq_ok valid held hbounds
  obtain ⟨start, finish, hperiod, hstart, hfinish⟩ :=
    periodBounds?_spec valid hfirst hlast' hp hp'
  have hbegin : (settings.yearStart year).number ≤ settings.edge year (period - 1) :=
    edge_zero settings year ▸ edge_mono valid hfirst hlast' (Nat.zero_le _) (by omega)
  have hsome : settings.edge year (period - 1) < settings.edge year period :=
    edge_strictMono valid hfirst hlast' (by omega) hp'
  have hwithin : settings.edge year period ≤ (settings.yearStart (year + 1)).number :=
    (edge_mono valid hfirst hlast' hp' (le_refl _)).trans (edge_periods_le valid hfirst hlast')
  refine ⟨start, finish, hperiod, ?_, ?_, ?_⟩
  · change (settings.yearStart year).number ≤ start.number
    omega
  · change start.number ≤ finish.number
    omega
  · change finish.number ≤ last.number
    omega

/-- A fiscal year of the calendar has bounds. They hold the dates of the year and all of its
periods, and the next year begins right behind them. -/
theorem yearBounds?_tiles (valid : settings.validate = .ok ())
    (held : settings.containsYear year = true) :
    ∃ first last, settings.yearBounds? year = .ok (first, last) ∧
      (∀ date, settings.yearOf? date = .ok year ↔ first ≤ date ∧ date ≤ last) ∧
      (∃ next, settings.yearStart? (year + 1) = .ok next ∧ next.addDays? (-1) = some last) ∧
      ∀ period, 1 ≤ period → period ≤ settings.periods →
        ∃ start finish, settings.periodBounds? year period = .ok (start, finish) ∧
          first ≤ start ∧ start ≤ finish ∧ finish ≤ last := by
  obtain ⟨last, hbounds, -⟩ := yearBounds?_spec valid held
  exact ⟨settings.yearStart year, last, hbounds, yearOf?_eq_ok_iff valid held hbounds,
    addDays?_yearStart_succ valid held hbounds,
    fun _ => periodBounds?_within valid held hbounds⟩

theorem yearBounds?_tiles_february :
    let settings : FiscalSettings := ⟨2, 30, .quarterly⟩
    settings.validate = .ok () ∧ settings.containsYear 2023 = true ∧
      settings.yearBounds? 2023 = .ok (⟨2023, 2, 28, by decide⟩, ⟨2024, 2, 28, by decide⟩) ∧
      (∀ date, settings.yearOf? date = .ok 2023 ↔
        ⟨2023, 2, 28, by decide⟩ ≤ date ∧ date ≤ ⟨2024, 2, 28, by decide⟩) ∧
      ∃ start finish, settings.periodBounds? 2023 4 = .ok (start, finish) ∧
        ⟨2023, 2, 28, by decide⟩ ≤ start ∧ start ≤ finish ∧ finish ≤ ⟨2024, 2, 28, by decide⟩ := by
  intro settings
  have valid : settings.validate = .ok () := rfl
  have held : settings.containsYear 2023 = true := by decide
  have hknown : settings.yearBounds? 2023 =
      .ok (⟨2023, 2, 28, by decide⟩, ⟨2024, 2, 28, by decide⟩) := by decide
  obtain ⟨first, last, hbounds, hyear, -, hperiod⟩ := yearBounds?_tiles valid held
  rw [hknown] at hbounds
  obtain ⟨rfl, rfl⟩ := Prod.mk.inj (Except.ok.inj hbounds)
  exact ⟨valid, held, hknown, hyear, hperiod 4 (by decide) (by decide)⟩

end RecordQuery.FiscalSettings
