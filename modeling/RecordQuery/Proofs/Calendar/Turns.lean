import RecordQuery.Predicate.Window
import RecordQuery.Proofs.Calendar.FiscalEdges
import RecordQuery.Proofs.Calendar.Moves
import RecordQuery.Proofs.Outcome

namespace RecordQuery

/-- Three stretches of days, one behind the other. The middle one has the days of a kind. -/
structure Turns (days : Turn → Date × Date) (kind : Date → Prop) : Prop where
  last_this : (days .last).2.number + 1 = (days .this).1.number
  this_next : (days .this).2.number + 1 = (days .next).1.number
  mem_iff (day : Date) : (days .this).1 ≤ day ∧ day ≤ (days .this).2 ↔ kind day

namespace Date

variable {date today first last : Date} {days : Turn → Date × Date}

def weekIndex (date : Date) : Int := date.number / 7

theorem number_weekStart (h : least.number < date.weekStart.number) :
    date.weekStart.number = date.number - date.number % 7 := by
  unfold weekStart at *
  cases hstart : date.addDays? (-date.daysSinceSunday) with
  | none =>
    rw [hstart, Option.getD_none] at h
    omega
  | some start =>
    rw [Option.getD_some, addDays?_eq_some_iff.mp hstart, daysSinceSunday]
    omega

theorem calendarDays?_week {turn : Turn}
    (h : Condition.calendarDays? today turn .week = some (first, last)) :
    first.number = today.weekStart.number + 7 * turn.shift ∧ last.number = first.number + 6 := by
  unfold Condition.calendarDays? at h
  obtain ⟨start, hstart, h⟩ := Option.bind_eq_some_iff.mp h
  obtain ⟨finish, hfinish, h⟩ := Option.bind_eq_some_iff.mp h
  obtain ⟨rfl, rfl⟩ := Prod.mk.inj (Option.some.inj h)
  exact ⟨addDays?_eq_some_iff.mp hstart, addDays?_eq_some_iff.mp hfinish⟩

theorem turns_week (h : ∀ turn, Condition.calendarDays? today turn .week = some (days turn)) :
    Turns days fun day => day.weekIndex = today.weekIndex := by
  obtain ⟨hfirst, hfinish⟩ := calendarDays?_week (h .last)
  obtain ⟨hfirst', hfinish'⟩ := calendarDays?_week (h .this)
  obtain ⟨hfirst'', -⟩ := calendarDays?_week (h .next)
  have hleast := (days .last).1.number_least_le
  simp only [Turn.shift] at hfirst hfirst' hfirst''
  have hstart := number_weekStart (show least.number < today.weekStart.number by omega)
  refine ⟨by omega, by omega, fun day => ?_⟩
  change (days .this).1.number ≤ day.number ∧ day.number ≤ (days .this).2.number ↔ _
  unfold weekIndex
  omega

theorem clamped_spec {year : Int} {month : Nat} (day : Nat) (hfirst : firstYear ≤ year)
    (hlast : year ≤ lastYear) (hm : 1 ≤ month) (hm' : month ≤ 12) :
    (clamped year month day).year = year ∧ (clamped year month day).month = month ∧
      (clamped year month day).day = max 1 (min day (closedMonthLength year month)) := by
  have hlength := monthLength_bounds year month
  have hclosed : 1 ≤ closedMonthLength year month ∧
      closedMonthLength year month ≤ monthLength year month := by
    unfold closedMonthLength
    split <;> omega
  have hvalid : Valid year month (max 1 (min day (closedMonthLength year month))) :=
    ⟨hfirst, hlast, hm, hm', by omega, by omega⟩
  rw [clamped, ofParts?_eq_some hvalid, Option.getD_some]
  exact ⟨rfl, rfl, rfl⟩

theorem clamped_first {year : Int} {month : Nat} (hfirst : firstYear ≤ year)
    (hlast : year ≤ lastYear) (hm : 1 ≤ month) (hm' : month ≤ 12) :
    (clamped year month 1).monthIndex = year * 12 + month - 1 ∧ (clamped year month 1).day = 1 := by
  obtain ⟨hy, hmonth, hd⟩ := clamped_spec 1 hfirst hlast hm hm'
  rw [monthIndex, hy, hmonth, hd]
  exact ⟨rfl, by omega⟩

theorem monthBounds_first (date : Date) :
    date.monthBounds.1.monthIndex = date.monthIndex ∧ date.monthBounds.1.day = 1 :=
  clamped_first date.valid.first_year date.valid.last_year date.valid.first_month
    date.valid.last_month

theorem monthBounds_last {next : Date} (hindex : next.monthIndex = date.monthIndex + 1)
    (hday : next.day = 1) : date.monthBounds.2.number + 1 = next.number := by
  obtain ⟨hfirst, hone⟩ := date.monthBounds_first
  have hlow := date.monthBounds.1.monthIndex_bounds.1
  have hhigh := next.monthIndex_bounds.2
  obtain ⟨hmoved, hmovedDay⟩ := addMonths_spec date.monthBounds.1 1 (by omega) (by omega)
  have hlength := monthLength_bounds (date.monthBounds.1.addMonths 1).year
    (date.monthBounds.1.addMonths 1).month
  have hnext : date.monthBounds.1.addMonths 1 = next :=
    eq_of_monthIndex_day (by omega) (by omega)
  have hleast := date.monthBounds.1.number_least_le
  have hlater := number_lt_of_monthIndex_lt (show date.monthBounds.1.monthIndex <
    next.monthIndex by omega)
  change (date.monthBounds.1.addMonths 1).previous.number + 1 = _
  rw [hnext, number_previous (by omega)]
  omega

theorem turns_month (h : ∀ turn, Condition.calendarDays? today turn .month = some (days turn)) :
    Turns days fun day => day.year = today.year ∧ day.month = today.month := by
  have hmoved : ∀ turn : Turn, ∃ moved : Date,
      moved.monthIndex = today.monthIndex + turn.shift ∧ days turn = moved.monthBounds := by
    intro turn
    obtain ⟨moved, hmoved, hbounds⟩ := Option.map_eq_some_iff.mp (h turn)
    exact ⟨moved, (addMonths?_spec hmoved).1, hbounds.symm⟩
  obtain ⟨before, hbefore, hdays⟩ := hmoved .last
  obtain ⟨moved, hthis, hdays'⟩ := hmoved .this
  obtain ⟨after, hafter, hdays''⟩ := hmoved .next
  simp only [Turn.shift] at hbefore hthis hafter
  obtain ⟨hfirst, hone⟩ := moved.monthBounds_first
  obtain ⟨hfirst', hone'⟩ := after.monthBounds_first
  have hnext : moved.monthBounds.2.number + 1 = after.monthBounds.1.number :=
    monthBounds_last (by omega) hone'
  rw [← hdays', ← hdays''] at hnext
  refine ⟨?_, hnext, fun day => ?_⟩
  · rw [hdays, hdays']
    exact monthBounds_last (by omega) hone
  · rw [← hdays'] at hfirst hone
    rw [← hdays''] at hfirst' hone'
    have hlow : (days .this).1.number ≤ day.number ↔ _ := le_iff_monthIndex_le hone
    have hhigh : (days .next).1.number ≤ day.number ↔ _ := le_iff_monthIndex_le hone'
    change (days .this).1.number ≤ day.number ∧ day.number ≤ (days .this).2.number ↔ _
    constructor
    · intro hmem
      exact same_month (by omega)
    · rintro ⟨hyear, hmonth⟩
      have hindex : day.monthIndex = today.monthIndex := by
        unfold monthIndex
        rw [hyear, hmonth]
      omega

theorem yearBounds_first (date : Date) :
    date.yearBounds.1.number = daysBeforeYear date.year + 1 := by
  obtain ⟨hy, hm, hd⟩ := clamped_spec 1 date.valid.first_year date.valid.last_year
    (show 1 ≤ 1 by omega) (by omega)
  have hlength : 28 ≤ closedMonthLength date.year 1 := by
    rw [closedMonthLength, if_neg (by omega)]
    exact (monthLength_bounds _ _).1
  have hbefore : daysBeforeMonth date.year 1 = 0 := rfl
  change (clamped date.year 1 1).number = _
  rw [number, hy, hm, hd]
  omega

theorem yearBounds_last (h : date.year < lastYear) :
    date.yearBounds.2.number = daysBeforeYear (date.year + 1) := by
  obtain ⟨hy, hm, hd⟩ := clamped_spec 31 date.valid.first_year date.valid.last_year
    (show 1 ≤ 12 by omega) (by omega)
  have hlength : closedMonthLength date.year 12 = 31 := by
    rw [closedMonthLength, if_neg (by omega)]
    rfl
  have hyear := daysBeforeYear_succ date.year
  have hmonth : daysBeforeMonth date.year 13 = daysBeforeMonth date.year 12 + 31 := rfl
  change (clamped date.year 12 31).number = _
  rw [number, hy, hm, hd]
  omega

theorem turns_year (h : ∀ turn, Condition.calendarDays? today turn .year = some (days turn)) :
    Turns days fun day => day.year = today.year := by
  have hmoved : ∀ turn : Turn, ∃ moved : Date,
      moved.year = today.year + turn.shift ∧ days turn = moved.yearBounds := by
    intro turn
    obtain ⟨moved, hmoved, hbounds⟩ := Option.map_eq_some_iff.mp (h turn)
    have hindex := (addMonths?_spec hmoved).1
    rw [monthIndex, monthIndex] at hindex
    obtain ⟨-, -, hm, hm', -, -⟩ := today.valid
    have hyear : moved.year = today.year + turn.shift :=
      (parts_of_monthIndex hm hm' (by rw [monthIndex]; omega)).1
    exact ⟨moved, hyear, hbounds.symm⟩
  obtain ⟨before, hbefore, hdays⟩ := hmoved .last
  obtain ⟨moved, hthis, hdays'⟩ := hmoved .this
  obtain ⟨after, hafter, hdays''⟩ := hmoved .next
  simp only [Turn.shift] at hbefore hthis hafter
  have hend : before.yearBounds.2.number = daysBeforeYear (before.year + 1) :=
    yearBounds_last (by
      have := today.valid.last_year
      unfold lastYear
      omega)
  have hend' : moved.yearBounds.2.number = daysBeforeYear (moved.year + 1) :=
    yearBounds_last (by
      have := after.valid.last_year
      unfold lastYear
      omega)
  have hbegin := moved.yearBounds_first
  have hbegin' := after.yearBounds_first
  rw [show before.year + 1 = moved.year by omega] at hend
  rw [show moved.year + 1 = after.year by omega] at hend'
  refine ⟨by rw [hdays, hdays']; omega, by rw [hdays', hdays'']; omega, fun day => ?_⟩
  obtain ⟨hlow, hhigh⟩ := day.number_bounds
  rw [hdays']
  change moved.yearBounds.1.number ≤ day.number ∧ day.number ≤ moved.yearBounds.2.number ↔ _
  rw [hbegin, hend']
  constructor
  · rintro ⟨hle, hle'⟩
    by_contra hne
    rcases lt_or_gt_of_ne hne with hlt | hgt
    · have := daysBeforeYear_mono (show day.year + 1 ≤ moved.year by omega)
      omega
    · have := daysBeforeYear_mono (show after.year ≤ day.year by omega)
      omega
  · intro heq
    rw [heq] at hlow hhigh
    rw [show moved.year = today.year by omega, show after.year = today.year + 1 by omega]
    omega

end Date

namespace FiscalSettings

variable {settings : FiscalSettings} {today : Date} {year next : Int}

theorem yearStart_lt (valid : settings.validate = .ok ()) (hfirst : Date.firstYear ≤ year)
    (hlt : year < next) (hlast : next ≤ Date.lastYear) :
    settings.yearStart year < settings.yearStart next := by
  obtain ⟨hm, hm', -, -⟩ := validate_spec valid
  obtain ⟨hy, hmonth, -⟩ := Date.clamped_spec settings.startDay hfirst
    (show year ≤ Date.lastYear by omega) hm hm'
  obtain ⟨hy', hmonth', -⟩ := Date.clamped_spec settings.startDay
    (show Date.firstYear ≤ next by omega) hlast hm hm'
  apply Date.number_lt_of_monthIndex_lt
  unfold Date.monthIndex yearStart
  rw [hy, hy', hmonth, hmonth']
  omega

theorem yearStart_mono (valid : settings.validate = .ok ()) (hfirst : Date.firstYear ≤ year)
    (hle : year ≤ next) (hlast : next ≤ Date.lastYear) :
    settings.yearStart year ≤ settings.yearStart next := by
  rcases Int.lt_or_eq_of_le hle with hlt | rfl
  · exact Int.le_of_lt (yearStart_lt valid hfirst hlt hlast)
  · exact Int.le_refl _

def SameYear (settings : FiscalSettings) (a b : Date) : Prop :=
  ∀ year, Date.firstYear ≤ year → year ≤ Date.lastYear →
    (settings.yearStart year ≤ a ↔ settings.yearStart year ≤ b)

theorem yearOf?_eq (valid : settings.validate = .ok ()) (date : Date) :
    settings.yearOf? date = .ok (settings.yearOf date) :=
  guarded_eq valid (by simpa using date.valid.last_year) _

theorem yearBounds?_spec (valid : settings.validate = .ok ())
    (held : settings.containsYear year = true) :
    ∃ last : Date, settings.yearBounds? year = .ok (settings.yearStart year, last) ∧
      last.number + 1 = (settings.yearStart (year + 1)).number := by
  obtain ⟨hfirst, hlast⟩ := containsYear_spec held
  have hleast := (settings.yearStart year).number_least_le
  have hlonger := yearStart_add_lt valid hfirst (show year + 1 < 262142 by omega)
  have hnext : min (year + 1) (signedLimit32 - 1) = year + 1 :=
    min_eq_left (by unfold signedLimit32; omega)
  refine ⟨(settings.yearStart (year + 1)).previous, ?_, ?_⟩
  · rw [yearBounds?, nextYear, hnext, guarded_eq valid (by simp; omega), yearBounds, hnext]
  · rw [Date.number_previous (by omega)]
    omega

theorem fiscalDays_year (valid : settings.validate = .ok ()) {condition : Condition} {turn : Turn}
    {first last : Date}
    (h : condition.fiscalDays settings today turn .year = .ok (first, last)) :
    settings.containsYear (settings.yearOf today + turn.shift) = true ∧
      first = settings.yearStart (settings.yearOf today + turn.shift) ∧
      last.number + 1 = (settings.yearStart (settings.yearOf today + turn.shift + 1)).number := by
  change (settings.yearOf? today >>= fun year =>
    condition.fiscalYearBounds settings (year + turn.shift)) = _ at h
  rw [yearOf?_eq valid, ok_bind, Condition.fiscalYearBounds] at h
  split at h
  · rename_i held
    obtain ⟨finish, hbounds, hfinish⟩ := yearBounds?_spec valid held
    rw [hbounds] at h
    obtain ⟨rfl, rfl⟩ := Prod.mk.inj (Except.ok.inj h)
    exact ⟨held, rfl, hfinish⟩
  · contradiction

theorem turns_fiscalYear (valid : settings.validate = .ok ()) {condition : Turn → Condition}
    {days : Turn → Date × Date}
    (h : ∀ turn, (condition turn).fiscalDays settings today turn .year = .ok (days turn)) :
    Turns days fun day => settings.SameYear day today := by
  obtain ⟨-, -, hend⟩ := fiscalDays_year valid (h .last)
  obtain ⟨held, hbegin, hend'⟩ := fiscalDays_year valid (h .this)
  obtain ⟨-, hbegin', -⟩ := fiscalDays_year valid (h .next)
  simp only [Turn.shift, Int.add_zero, Int.neg_add_cancel_right, Int.reduceNeg] at *
  refine ⟨by rw [hbegin, hend], by rw [hbegin', hend'], fun day => ?_⟩
  obtain ⟨hfirst, hlast⟩ := containsYear_spec held
  obtain ⟨hlow, hhigh⟩ := (yearOf_eq_iff valid hfirst (by omega) today).mp rfl
  replace hlow : (settings.yearStart (settings.yearOf today)).number ≤ today.number := hlow
  replace hhigh : today.number < (settings.yearStart (settings.yearOf today + 1)).number := hhigh
  change (days .this).1.number ≤ day.number ∧ day.number ≤ (days .this).2.number ↔ _
  rw [hbegin]
  constructor
  · rintro ⟨hle, hle'⟩ year hyear hyear'
    change (settings.yearStart year).number ≤ day.number ↔
      (settings.yearStart year).number ≤ today.number
    rcases (show year ≤ settings.yearOf today ∨ settings.yearOf today + 1 ≤ year by omega) with
      hbefore | hafter
    · have hmono : (settings.yearStart year).number ≤ _ :=
        yearStart_mono valid hyear hbefore (by unfold Date.lastYear; omega)
      omega
    · have hmono : _ ≤ (settings.yearStart year).number :=
        yearStart_mono valid (by unfold Date.firstYear; omega) hafter hyear'
      omega
  · intro hsame
    have hbegun : (settings.yearStart (settings.yearOf today)).number ≤ day.number :=
      (hsame _ (by unfold Date.firstYear; omega) (by unfold Date.lastYear; omega)).mpr hlow
    have hnot : ¬ (settings.yearStart (settings.yearOf today + 1)).number ≤ day.number :=
      fun hle => absurd ((hsame _ (by unfold Date.firstYear; omega)
        (by unfold Date.lastYear; omega)).mp hle) (not_le.mpr hhigh)
    omega

end FiscalSettings

end RecordQuery
