import RecordQuery.Proofs.Calendar.FiscalEdges

namespace RecordQuery.FiscalSettings

variable {settings : FiscalSettings} {year : Int}

theorem periodBounds_spec (valid : settings.validate = .ok ()) (hfirst : -262143 ≤ year)
    (hlast : year + 1 < 262142) {period : Nat} (hp : 1 ≤ period) (hp' : period ≤ settings.periods) :
    ∃ first last, settings.periodBounds year period = .ok (first, last) ∧
      first.number = settings.edge year (period - 1) ∧
      last.number = settings.edge year period - 1 := by
  have hrange : ¬ (period = 0 ∨ settings.periods < period) := by omega
  have hedge := edge_strictMono valid hfirst hlast (show period - 1 < period by omega) hp'
  have hleast := (settings.yearStart year).number_least_le
  have hgreatest := (settings.yearStart (year + 1)).number_le_greatest
  have hbegin := edge_mono valid hfirst hlast (Nat.zero_le (period - 1)) (by omega)
  rw [edge_zero] at hbegin
  unfold periodBounds
  rw [if_neg hrange]
  cases hmonths : settings.template.monthsPerPeriod? with
  | some months =>
    simp only [edge, hmonths] at hedge hbegin ⊢
    refine ⟨_, _, rfl, rfl, ?_⟩
    exact Date.number_previous (by omega)
  | none =>
    have hlength := yearStart_add_lt valid hfirst hlast
    have hthirteen := periods_of_fourWeek hmonths
    simp only [edge, hmonths] at hedge hbegin ⊢
    rw [if_pos (by omega)] at hedge hbegin ⊢
    obtain ⟨first, hmove, hnumber⟩ :=
      Date.exists_addDays? (settings.yearStart year) (28 * (period - 1) : Nat) (by omega) (by omega)
    simp only [hmove]
    -- The last period takes in what is left of the year, however long that is.
    by_cases hend : period = settings.periods
    · have hnextYear : min (year + 1) (signedLimit32 - 1) = year + 1 :=
        min_eq_left (by unfold signedLimit32; omega)
      simp only [hend, if_true, lt_irrefl, if_false, yearBounds, hnextYear]
      refine ⟨_, _, rfl, by omega, ?_⟩
      exact Date.number_previous (by omega)
    · obtain ⟨last, hmove', hnumber'⟩ := Date.exists_addDays? first 27 (by omega) (by omega)
      simp only [hend, if_false, hmove', if_pos (show period < settings.periods by omega)]
      exact ⟨_, _, rfl, by omega, by omega⟩

theorem periodBounds?_eq (valid : settings.validate = .ok ()) (hlast : year + 1 < 262142)
    {period : Nat} {bounds : Date × Date} (h : settings.periodBounds year period = .ok bounds) :
    settings.periodBounds? year period = .ok bounds := by
  have hnext : nextYear year ≤ 262142 := by
    unfold nextYear
    omega
  simp only [periodBounds?, h, Except.bind]
  apply guarded_eq valid
  intro y hy
  split at hy
  · simp only [List.mem_cons, List.not_mem_nil, or_false] at hy
    rcases hy with rfl | rfl <;> omega
  · simp only [List.mem_cons, List.not_mem_nil, or_false] at hy
    omega

theorem periodBounds?_spec (valid : settings.validate = .ok ()) (hfirst : -262143 ≤ year)
    (hlast : year + 1 < 262142) {period : Nat} (hp : 1 ≤ period) (hp' : period ≤ settings.periods) :
    ∃ first last, settings.periodBounds? year period = .ok (first, last) ∧
      first.number = settings.edge year (period - 1) ∧
      last.number = settings.edge year period - 1 := by
  obtain ⟨first, last, hbounds, hedges⟩ := periodBounds_spec valid hfirst hlast hp hp'
  exact ⟨first, last, periodBounds?_eq valid hlast hbounds, hedges⟩

theorem takeWhile_range'_spec (keep : Nat → Bool) (start count : Nat) :
    let passed := ((List.range' start count).takeWhile keep).length
    passed ≤ count ∧ (∀ k, start ≤ k → k < start + passed → keep k = true) ∧
      (passed < count → keep (start + passed) = false) := by
  induction count generalizing start with
  | zero =>
    simp only [List.range'_zero, List.takeWhile_nil, List.length_nil]
    exact ⟨le_refl _, fun k hle hlt => absurd hle (by omega), fun h => absurd h (by omega)⟩
  | succ count ih =>
    obtain ⟨hle, hpass, hstop⟩ := ih (start + 1)
    simp only [List.range'_succ, List.takeWhile_cons]
    by_cases hkeep : keep start = true
    · simp only [hkeep, if_true, List.length_cons]
      refine ⟨by omega, ?_, ?_⟩
      · intro k hk hlt
        rcases Nat.eq_or_lt_of_le hk with rfl | hk
        · exact hkeep
        · exact hpass k hk (by omega)
      · intro hlt
        rw [← hstop (by omega)]
        congr 1
        omega
    · simp only [hkeep, Bool.false_eq_true, if_false, List.length_nil]
      exact ⟨by omega, fun k hk hlt => absurd hk (by omega), fun _ => by simpa using hkeep⟩

theorem periodOf?_spec (valid : settings.validate = .ok ()) (hfirst : -262143 ≤ year)
    (hlast : year + 1 < 262142) {date : Date} (hyear : settings.yearOf date = year) :
    ∃ period, settings.periodOf? date = .ok (year, period) ∧ 1 ≤ period ∧
      period ≤ settings.periods ∧ settings.edge year (period - 1) ≤ date.number ∧
      (period < settings.periods → date.number < settings.edge year period) := by
  have hpos := settings.template.periods_pos
  have hstart : (settings.yearStart year).number ≤ date.number :=
    ((yearOf_eq_iff valid hfirst hlast date).mp hyear).1
  have hnext : date.number < (settings.yearStart (year + 1)).number :=
    ((yearOf_eq_iff valid hfirst hlast date).mp hyear).2
  have hfits : ∀ y ∈ [date.year], y ≤ 262142 := by
    intro y hy
    rw [List.mem_singleton] at hy
    rw [hy]
    exact date.valid.last_year
  simp only [periodOf?, guarded_eq valid hfits]
  cases hmonths : settings.template.monthsPerPeriod? with
  | some months =>
    obtain ⟨hle, hpass, hstop⟩ := takeWhile_range'_spec
      (fun period => decide ((settings.yearStart year).addMonths (period * months : Nat) ≤ date)) 1
      (settings.periods - 1)
    simp only [periodOf, hyear, hmonths]
    refine ⟨_, rfl, by omega, ?_, ?_, ?_⟩
    · change 1 ≤ settings.periods at hpos
      omega
    · rw [Nat.add_sub_cancel]
      generalize (List.takeWhile _ (List.range' 1 (settings.periods - 1))).length = passed at *
      rcases Nat.eq_zero_or_pos passed with rfl | hsome
      · rw [edge_zero]
        exact hstart
      · have hlastPassed := of_decide_eq_true (hpass passed (by omega) (by omega))
        simp only [edge, hmonths]
        exact hlastPassed
    · intro hmore
      generalize (List.takeWhile _ (List.range' 1 (settings.periods - 1))).length = passed at *
      have hstopped := of_decide_eq_false (hstop (by omega))
      simp only [edge, hmonths, Nat.add_comm passed 1]
      exact not_le.mp hstopped
  | none =>
    have hthirteen := periods_of_fourWeek hmonths
    simp only [periodOf, hyear, hmonths, hthirteen, edge]
    refine ⟨_, rfl, by omega, by omega, ?_, ?_⟩
    · rw [if_pos (by omega)]
      omega
    · intro hmore
      rw [if_pos hmore]
      omega

/-- A fiscal year of the calendar and one of its periods, in which the date lies. -/
def Covers (settings : FiscalSettings) (year : Int) (period : Nat) (date : Date) : Prop :=
  settings.containsYear year = true ∧ 1 ≤ period ∧ period ≤ settings.periods ∧
    ∃ first last, settings.periodBounds? year period = .ok (first, last) ∧
      first ≤ date ∧ date ≤ last

theorem covers_iff (valid : settings.validate = .ok ()) (held : settings.containsYear year = true)
    {period : Nat} {date : Date} :
    settings.Covers year period date ↔ 1 ≤ period ∧ period ≤ settings.periods ∧
      settings.edge year (period - 1) ≤ date.number ∧ date.number < settings.edge year period := by
  obtain ⟨hfirst, hlast⟩ := containsYear_spec held
  constructor
  · rintro ⟨-, hp, hp', first, last, hbounds, hlow, hhigh⟩
    obtain ⟨first', last', hbounds', hedge, hedge'⟩ :=
      periodBounds?_spec valid hfirst (by omega) hp hp'
    rw [hbounds] at hbounds'
    obtain ⟨rfl, rfl⟩ := Prod.mk.inj (Except.ok.inj hbounds')
    replace hlow : first.number ≤ date.number := hlow
    replace hhigh : date.number ≤ last.number := hhigh
    exact ⟨hp, hp', by omega, by omega⟩
  · rintro ⟨hp, hp', hlow, hhigh⟩
    obtain ⟨first, last, hbounds, hedge, hedge'⟩ :=
      periodBounds?_spec valid hfirst (by omega) hp hp'
    refine ⟨held, hp, hp', first, last, hbounds, ?_, ?_⟩
    · change first.number ≤ date.number
      omega
    · change date.number ≤ last.number
      omega

theorem yearOf_of_covers (valid : settings.validate = .ok ()) {period : Nat} {date : Date}
    (h : settings.Covers year period date) : settings.yearOf date = year := by
  have held := h.1
  obtain ⟨hfirst, hlast⟩ := containsYear_spec held
  obtain ⟨hp, hp', hlow, hhigh⟩ := (covers_iff valid held).mp h
  have hend := edge_periods_le valid hfirst (show year + 1 < 262142 by omega)
  have hbegin := edge_mono valid hfirst (show year + 1 < 262142 by omega)
    (Nat.zero_le (period - 1)) (by omega)
  have hlate := edge_mono valid hfirst (show year + 1 < 262142 by omega) hp' (le_refl _)
  rw [edge_zero] at hbegin
  refine (yearOf_eq_iff valid hfirst (by omega) date).mpr ⟨?_, ?_⟩
  · change (settings.yearStart year).number ≤ date.number
    omega
  · change date.number < (settings.yearStart (year + 1)).number
    omega

theorem Covers.unique (valid : settings.validate = .ok ()) {date : Date} {other : Int}
    {period next : Nat} (h : settings.Covers year period date) (h' : settings.Covers other next date) :
    year = other ∧ period = next := by
  obtain rfl : year = other := (yearOf_of_covers valid h).symm.trans (yearOf_of_covers valid h')
  have held := h.1
  obtain ⟨hfirst, hlast⟩ := containsYear_spec held
  obtain ⟨hp, hp', hlow, hhigh⟩ := (covers_iff valid held).mp h
  obtain ⟨hq, hq', hlow', hhigh'⟩ := (covers_iff valid held).mp h'
  refine ⟨rfl, ?_⟩
  rcases lt_trichotomy period next with hlt | heq | hgt
  · have hmono := edge_mono valid hfirst (by omega) (show period ≤ next - 1 by omega) (by omega)
    omega
  · exact heq
  · have hmono := edge_mono valid hfirst (by omega) (show next ≤ period - 1 by omega) (by omega)
    omega

/-- The period of a date is the only one that covers it, unless the date is left out; then none
does. -/
theorem periodOf?_unique_iff (valid : settings.validate = .ok ()) {date : Date}
    (held : settings.containsYear (settings.yearOf date) = true) :
    ∃ year period, settings.periodOf? date = .ok (year, period) ∧
      ((∀ y p, settings.Covers y p date ↔ y = year ∧ p = period) ↔ ¬ settings.LeavesOut date) ∧
      (settings.LeavesOut date → ∀ y p, ¬ settings.Covers y p date) := by
  obtain ⟨hfirst, hlast⟩ := containsYear_spec held
  obtain ⟨period, hok, hp, hp', hlow, hhigh⟩ := periodOf?_spec valid hfirst (by omega) rfl
  have hnone : settings.LeavesOut date → ∀ y p, ¬ settings.Covers y p date := by
    intro hout y p hcovers
    have hyear := yearOf_of_covers valid hcovers
    subst hyear
    obtain ⟨-, hle, -, hlt⟩ := (covers_iff valid held).mp hcovers
    have hend := (edge_periods_le_iff valid hfirst (by omega) rfl).mpr hout
    have hmono := edge_mono valid hfirst (by omega) hle (le_refl _)
    omega
  refine ⟨settings.yearOf date, period, hok, ⟨?_, ?_⟩, hnone⟩
  · intro hunique hout
    exact hnone hout _ _ ((hunique _ _).mpr ⟨rfl, rfl⟩)
  · intro hin y p
    have hbefore : date.number < settings.edge (settings.yearOf date) period := by
      rcases Nat.eq_or_lt_of_le hp' with hlastPeriod | hmore
      · rw [hlastPeriod]
        exact not_le.mp fun hle => hin ((edge_periods_le_iff valid hfirst (by omega) rfl).mp hle)
      · exact hhigh hmore
    have hcovers := (covers_iff valid held).mpr ⟨hp, hp', hlow, hbefore⟩
    constructor
    · exact fun hother => hother.unique valid hcovers
    · rintro ⟨rfl, rfl⟩
      exact hcovers

theorem periodOf?_unique_iff_quarters :
    let settings : FiscalSettings := ⟨2, 29, .quarterly⟩
    let date : Date := ⟨2023, 5, 27, by decide⟩
    settings.validate = .ok () ∧ settings.containsYear (settings.yearOf date) = true ∧
      settings.periodOf? date = .ok (2023, 1) ∧
      ∀ y p, settings.Covers y p date ↔ y = 2023 ∧ p = 1 := by
  intro settings date
  have valid : settings.validate = .ok () := rfl
  have held : settings.containsYear (settings.yearOf date) = true := by decide
  have hperiod : settings.periodOf? date = .ok (2023, 1) := by decide
  obtain ⟨year, period, hok, hunique, -⟩ := periodOf?_unique_iff valid held
  rw [hperiod] at hok
  obtain ⟨rfl, rfl⟩ := Prod.mk.inj (Except.ok.inj hok)
  exact ⟨valid, held, hperiod, hunique.mpr (by decide)⟩

theorem exists_period_not_covers :
    ¬ ∀ (settings : FiscalSettings) (date : Date), settings.validate = .ok () →
      settings.containsYear (settings.yearOf date) = true →
      ∃ year period, settings.periodOf? date = .ok (year, period) ∧
        ∀ y p, settings.Covers y p date ↔ y = year ∧ p = period := by
  intro h
  obtain ⟨year, period, hok, hunique⟩ :=
    h ⟨2, 29, .annually⟩ ⟨2024, 2, 28, by decide⟩ rfl (by decide)
  obtain ⟨rfl, rfl⟩ : 2023 = year ∧ 1 = period := Prod.mk.inj (Except.ok.inj hok)
  obtain ⟨-, -, -, first, last, hbounds, -, hle⟩ := (hunique 2023 1).mpr ⟨rfl, rfl⟩
  obtain ⟨-, rfl⟩ : (⟨2023, 2, 28, by decide⟩ : Date) = first ∧
      (⟨2024, 2, 27, by decide⟩ : Date) = last := Prod.mk.inj (Except.ok.inj hbounds)
  exact absurd hle (by decide)

end RecordQuery.FiscalSettings
