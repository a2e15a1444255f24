import RecordQuery.Calendar.Fiscal
import RecordQuery.Proofs.Calendar.DayNumber

/-!
The edges of a fiscal year: the numbers of the first days of its periods. The last edge is the start
of the next fiscal year, except where a year that starts on the 28th of February, for want of a
29th, is followed by one that starts on the 29th.
-/

namespace RecordQuery

namespace FiscalTemplate

theorem monthsPerPeriod?_spec {template : FiscalTemplate} {months : Nat}
    (h : template.monthsPerPeriod? = some months) :
    months * template.periods = 12 ∧ template ≠ .fourWeek := by
  cases template <;> simp_all [monthsPerPeriod?, periods] <;> omega

theorem eq_fourWeek_of_monthsPerPeriod? {template : FiscalTemplate}
    (h : template.monthsPerPeriod? = none) : template = .fourWeek := by
  cases template <;> simp_all [monthsPerPeriod?]

theorem periods_pos (template : FiscalTemplate) : 1 ≤ template.periods := by
  cases template <;> decide

end FiscalTemplate

namespace FiscalSettings

variable {settings : FiscalSettings} {year : Int}

theorem validate_spec (h : settings.validate = .ok ()) :
    1 ≤ settings.startMonth ∧ settings.startMonth ≤ 12 ∧ 1 ≤ settings.startDay ∧
      settings.startDay ≤ 31 := by
  unfold validate at h
  split at h
  · contradiction
  · split at h
    · contradiction
    · omega

theorem containsYear_spec (h : settings.containsYear year = true) :
    -262143 ≤ year ∧ year + 2 ≤ 262142 :=
  of_decide_eq_true h

theorem guarded_eq {α : Type} (valid : settings.validate = .ok ()) {years : List Int}
    (h : ∀ y ∈ years, y ≤ 262142) (answer : α) : settings.guarded years answer = .ok answer := by
  obtain ⟨-, hm, -, -⟩ := validate_spec valid
  have hall : years.all settings.isComputable = true := by
    rw [List.all_eq_true]
    intro y hy
    have hlast := h y hy
    simp only [isComputable, limit32, signedLimit32, Bool.and_eq_true, decide_eq_true_eq,
      Bool.or_eq_true]
    exact ⟨by omega, Or.inr (by omega)⟩
  simp [guarded, hall]

theorem yearStart_spec (valid : settings.validate = .ok ()) (year : Int) (hfirst : -262143 ≤ year)
    (hlast : year < 262142) :
    (settings.yearStart year).year = year ∧
      (settings.yearStart year).month = settings.startMonth ∧
      (settings.yearStart year).day =
        min settings.startDay (monthLength year settings.startMonth) := by
  obtain ⟨hm1, hm12, hd1, hd31⟩ := validate_spec valid
  have hlength := Date.monthLength_bounds year settings.startMonth
  have hclosed : Date.closedMonthLength year settings.startMonth =
      monthLength year settings.startMonth := by
    unfold Date.closedMonthLength Date.lastYear
    rw [if_neg (by omega)]
  have hvalid : Date.Valid year settings.startMonth
      (max 1 (min settings.startDay (monthLength year settings.startMonth))) :=
    ⟨hfirst, by omega, hm1, hm12, by omega, by omega⟩
  unfold yearStart Date.clamped
  rw [hclosed, Date.ofParts?_eq_some hvalid, Option.getD_some]
  exact ⟨rfl, rfl, by simp only; omega⟩

theorem periods_of_fourWeek (h : settings.template.monthsPerPeriod? = none) :
    settings.periods = 13 := by
  unfold periods
  rw [FiscalTemplate.eq_fourWeek_of_monthsPerPeriod? h]
  rfl

theorem periods_mul_months {months : Nat} (h : settings.template.monthsPerPeriod? = some months) :
    settings.periods * months = 12 := by
  rw [Nat.mul_comm]
  exact (FiscalTemplate.monthsPerPeriod?_spec h).1

theorem monthIndex_yearStart (valid : settings.validate = .ok ()) (year : Int)
    (hfirst : -262143 ≤ year) (hlast : year < 262142) :
    (settings.yearStart year).monthIndex = year * 12 + settings.startMonth - 1 := by
  obtain ⟨hy, hm, -⟩ := yearStart_spec valid year hfirst hlast
  rw [Date.monthIndex, hy, hm]

theorem yearOf_eq_iff (valid : settings.validate = .ok ()) (hfirst : -262143 ≤ year)
    (hlast : year + 1 < 262142) (date : Date) :
    settings.yearOf date = year ↔
      settings.yearStart year ≤ date ∧ date < settings.yearStart (year + 1) := by
  obtain ⟨hy, -, -⟩ := yearStart_spec valid year hfirst (by omega)
  obtain ⟨hy', -, -⟩ := yearStart_spec valid (year + 1) (by omega) hlast
  have hstart := (settings.yearStart year).number_bounds
  have hnext := (settings.yearStart (year + 1)).number_bounds
  have hdate := date.number_bounds
  rw [hy] at hstart
  rw [hy'] at hnext
  change _ ↔ (settings.yearStart year).number ≤ date.number ∧
    date.number < (settings.yearStart (year + 1)).number
  unfold yearOf
  -- A date is compared with the start that lies in its own calendar year.
  rcases lt_trichotomy date.year year with hlt | heq | hgt
  · have hstep := Date.daysBeforeYear_mono (show date.year + 1 ≤ year by omega)
    split <;> omega
  · rw [heq] at hdate ⊢
    change (if (settings.yearStart year).number ≤ date.number then _ else _) = _ ↔ _
    split <;> omega
  · have hstep := Date.daysBeforeYear_mono (show year + 1 ≤ date.year by omega)
    rcases (show date.year = year + 1 ∨ year + 1 + 1 ≤ date.year by omega) with heq | hfar
    · rw [heq]
      change (if (settings.yearStart (year + 1)).number ≤ date.number then _ else _) = _ ↔ _
      split <;> omega
    · have hfar' := Date.daysBeforeYear_mono hfar
      split <;> omega

theorem yearStart_add_lt (valid : settings.validate = .ok ()) (hfirst : -262143 ≤ year)
    (hlast : year + 1 < 262142) :
    (settings.yearStart year).number + 336 < (settings.yearStart (year + 1)).number := by
  obtain ⟨-, -, hd1, -⟩ := validate_spec valid
  obtain ⟨hy, hm, hd⟩ := yearStart_spec valid year hfirst (show year < 262142 by omega)
  obtain ⟨hy', hm', hd'⟩ := yearStart_spec valid (year + 1) (by omega) hlast
  have hbefore := (Date.daysBeforeMonth_close year (year + 1) settings.startMonth).2
  have hshort := Date.monthLength_bounds year settings.startMonth
  have hshort' := Date.monthLength_bounds (year + 1) settings.startMonth
  have hstep := Date.daysBeforeYear_succ year
  have hlength := Date.yearLength_bounds year
  unfold Date.number
  rw [hy, hm, hd, hy', hm', hd']
  omega

def edge (settings : FiscalSettings) (year : Int) (k : Nat) : Int :=
  match settings.template.monthsPerPeriod? with
  | some months => ((settings.yearStart year).addMonths (k * months : Nat)).number
  | none =>
    if k < settings.periods then (settings.yearStart year).number + 28 * k
    else (settings.yearStart (year + 1)).number

theorem edge_zero (settings : FiscalSettings) (year : Int) :
    settings.edge year 0 = (settings.yearStart year).number := by
  have hpos := settings.template.periods_pos
  unfold edge
  split
  · simp only [Nat.zero_mul, Nat.cast_zero]
    rw [Date.addMonths_zero]
  · rw [if_pos (show 0 < settings.periods from hpos)]
    omega

theorem addMonths_yearStart (valid : settings.validate = .ok ()) (hfirst : -262143 ≤ year)
    (hlast : year + 1 < 262142) {months : Nat} (hmonths : months ≤ 12) :
    ((settings.yearStart year).addMonths months).monthIndex =
        year * 12 + settings.startMonth - 1 + months ∧
      ((settings.yearStart year).addMonths months).day = min (settings.yearStart year).day
        (monthLength ((settings.yearStart year).addMonths months).year
          ((settings.yearStart year).addMonths months).month) := by
  obtain ⟨hm1, hm12, -, -⟩ := validate_spec valid
  have hindex := monthIndex_yearStart valid year hfirst (show year < 262142 by omega)
  rw [← hindex]
  apply Date.addMonths_spec
  · rw [hindex]
    unfold Date.firstYear
    omega
  · rw [hindex]
    unfold Date.lastYear
    omega

theorem edge_strictMono (valid : settings.validate = .ok ()) (hfirst : -262143 ≤ year)
    (hlast : year + 1 < 262142) {j k : Nat} (hjk : j < k) (hk : k ≤ settings.periods) :
    settings.edge year j < settings.edge year k := by
  unfold edge
  split
  · rename_i months hmonths
    have hproduct := periods_mul_months hmonths
    have hpos : 0 < months := Nat.pos_of_ne_zero fun hzero => by simp [hzero] at hproduct
    have hle : k * months ≤ 12 := by
      rw [← hproduct]
      exact Nat.mul_le_mul_right months hk
    have hlt : j * months < k * months := Nat.mul_lt_mul_of_pos_right hjk hpos
    obtain ⟨hj, -⟩ := addMonths_yearStart valid hfirst hlast (show j * months ≤ 12 by omega)
    obtain ⟨hk', -⟩ := addMonths_yearStart valid hfirst hlast hle
    apply Date.number_lt_of_monthIndex_lt
    omega
  · rename_i hnone
    have hthirteen := periods_of_fourWeek hnone
    have hlength := yearStart_add_lt valid hfirst hlast
    split <;> split <;> omega

theorem edge_mono (valid : settings.validate = .ok ()) (hfirst : -262143 ≤ year)
    (hlast : year + 1 < 262142) {j k : Nat} (hjk : j ≤ k) (hk : k ≤ settings.periods) :
    settings.edge year j ≤ settings.edge year k := by
  rcases Nat.eq_or_lt_of_le hjk with heq | hlt
  · rw [heq]
  · exact le_of_lt (edge_strictMono valid hfirst hlast hlt hk)

def anniversary (settings : FiscalSettings) (year : Int) : Date :=
  (settings.yearStart year).addMonths (12 : Nat)

theorem edge_periods_eq {months : Nat} (h : settings.template.monthsPerPeriod? = some months) :
    settings.edge year settings.periods = (settings.anniversary year).number := by
  simp only [edge, h, periods_mul_months h, anniversary]

theorem edge_periods_fourWeek (h : settings.template.monthsPerPeriod? = none) :
    settings.edge year settings.periods = (settings.yearStart (year + 1)).number := by
  simp only [edge, h, lt_irrefl, if_false]

section Anniversary

variable (valid : settings.validate = .ok ()) (hfirst : -262143 ≤ year) (hlast : year + 1 < 262142)

include valid hfirst hlast

theorem monthIndex_anniversary : (settings.anniversary year).monthIndex =
    (year + 1) * 12 + settings.startMonth - 1 := by
  obtain ⟨hindex, -⟩ := addMonths_yearStart valid hfirst hlast (show 12 ≤ 12 by omega)
  rw [anniversary, hindex]
  omega

theorem anniversary_spec :
    (settings.anniversary year).year = year + 1 ∧
      (settings.anniversary year).month = settings.startMonth ∧
      (settings.anniversary year).day =
        min (min settings.startDay (monthLength year settings.startMonth))
          (monthLength (year + 1) settings.startMonth) := by
  obtain ⟨hm1, hm12, -, -⟩ := validate_spec valid
  obtain ⟨-, -, hstart⟩ := yearStart_spec valid year hfirst (show year < 262142 by omega)
  obtain ⟨-, hday⟩ := addMonths_yearStart valid hfirst hlast (show 12 ≤ 12 by omega)
  obtain ⟨hy, hm⟩ := Date.parts_of_monthIndex hm1 hm12
    (monthIndex_anniversary valid hfirst hlast)
  rw [← anniversary, hy, hm, hstart] at hday
  exact ⟨hy, hm, hday⟩

theorem yearStart_sub_anniversary :
    (settings.yearStart (year + 1)).number - (settings.anniversary year).number =
      (settings.yearStart (year + 1)).day - (settings.anniversary year).day := by
  apply Date.number_sub_number
  rw [monthIndex_anniversary valid hfirst hlast]
  exact monthIndex_yearStart valid (year + 1) (by omega) hlast

theorem edge_periods_le :
    settings.edge year settings.periods ≤ (settings.yearStart (year + 1)).number := by
  cases hmonths : settings.template.monthsPerPeriod? with
  | some months =>
    obtain ⟨-, -, hd⟩ := anniversary_spec valid hfirst hlast
    obtain ⟨-, -, hnext⟩ := yearStart_spec valid (year + 1) (by omega) hlast
    have hgap := yearStart_sub_anniversary valid hfirst hlast
    rw [edge_periods_eq hmonths]
    omega
  | none => exact le_of_eq (edge_periods_fourWeek hmonths)

theorem february_of_anniversary_lt
    (h : (settings.anniversary year).number < (settings.yearStart (year + 1)).number) :
    settings.startMonth = 2 ∧ 28 < settings.startDay ∧ isLeapYear (year + 1) = true ∧
      (settings.anniversary year).day = 28 ∧ (settings.yearStart (year + 1)).day = 29 := by
  obtain ⟨-, -, hd⟩ := anniversary_spec valid hfirst hlast
  obtain ⟨-, -, hnext⟩ := yearStart_spec valid (year + 1) (by omega) hlast
  have hgap := yearStart_sub_anniversary valid hfirst hlast
  have hfebruary : settings.startMonth = 2 := by
    by_contra hne
    have hlength := Date.monthLength_eq hne year (year + 1)
    omega
  rw [hfebruary, Date.monthLength_february, Date.monthLength_february] at hd
  rw [hfebruary, Date.monthLength_february] at hnext
  have hleap : isLeapYear (year + 1) = true := by
    by_contra hnot
    rw [if_neg hnot] at hd hnext
    split at hd <;> omega
  rw [hleap, Date.not_isLeapYear_of_succ hleap] at hd
  rw [hleap] at hnext
  simp only [Bool.false_eq_true, if_false, if_true] at hd hnext
  exact ⟨hfebruary, by omega, hleap, by omega, by omega⟩

end Anniversary

/-- The day of February that no period holds: the one before the start of a fiscal year that is
named for the 29th, behind a year that started on the 28th. -/
def LeavesOut (settings : FiscalSettings) (date : Date) : Prop :=
  settings.template ≠ .fourWeek ∧ settings.startMonth = 2 ∧ 28 < settings.startDay ∧
    isLeapYear date.year = true ∧ date.month = 2 ∧ date.day = 28

instance (settings : FiscalSettings) (date : Date) : Decidable (settings.LeavesOut date) :=
  inferInstanceAs (Decidable (_ ∧ _))

section LeavesOut

variable {date : Date}

theorem leavesOut_of_edge_le (valid : settings.validate = .ok ()) (hfirst : -262143 ≤ year)
    (hlast : year + 1 < 262142) (hyear : settings.yearOf date = year)
    (hle : settings.edge year settings.periods ≤ date.number) : settings.LeavesOut date := by
  obtain ⟨-, hnext⟩ := (yearOf_eq_iff valid hfirst hlast date).mp hyear
  replace hnext : date.number < (settings.yearStart (year + 1)).number := hnext
  cases hmonths : settings.template.monthsPerPeriod? with
  | some months =>
    rw [edge_periods_eq hmonths] at hle
    obtain ⟨hy, hm, -⟩ := anniversary_spec valid hfirst hlast
    obtain ⟨hfebruary, hstart, hleap, h28, h29⟩ :=
      february_of_anniversary_lt valid hfirst hlast (by omega)
    have hgap := yearStart_sub_anniversary valid hfirst hlast
    obtain rfl : date = settings.anniversary year := Date.number_injective (by omega)
    obtain ⟨-, htemplate⟩ := FiscalTemplate.monthsPerPeriod?_spec hmonths
    exact ⟨htemplate, hfebruary, hstart, by rw [hy, hleap], by rw [hm, hfebruary], h28⟩
  | none =>
    rw [edge_periods_fourWeek hmonths] at hle
    omega

theorem year_of_leavesOut (valid : settings.validate = .ok ()) (hfirst : -262143 ≤ year)
    (hlast : year + 1 < 262142) (hyear : settings.yearOf date = year)
    (h : settings.LeavesOut date) : date.year = year + 1 := by
  obtain ⟨-, hfebruary, hday, hleap, hmonth, h28⟩ := h
  obtain ⟨hlow, hhigh⟩ := (yearOf_eq_iff valid hfirst hlast date).mp hyear
  obtain ⟨-, -, hstart⟩ := yearStart_spec valid year hfirst (show year < 262142 by omega)
  have hindex := monthIndex_yearStart valid year hfirst (show year < 262142 by omega)
  have hindex' := monthIndex_yearStart valid (year + 1) (by omega) hlast
  have hbegin := Date.monthIndex_le_of_le hlow
  have hend := Date.monthIndex_le_of_le (le_of_lt hhigh : date.number ≤ _)
  have hdate : date.monthIndex = date.year * 12 + date.month - 1 := rfl
  rcases (show date.year = year ∨ date.year = year + 1 by omega) with heq | heq
  · have hback := Date.number_sub_number (show (settings.yearStart year).monthIndex =
      date.monthIndex by rw [hindex, hdate, heq, hmonth, hfebruary])
    rw [heq] at hleap
    rw [hfebruary, Date.monthLength_february, if_pos hleap] at hstart
    replace hlow : (settings.yearStart year).number ≤ date.number := hlow
    omega
  · exact heq

theorem edge_le_of_leavesOut (valid : settings.validate = .ok ()) (hfirst : -262143 ≤ year)
    (hlast : year + 1 < 262142) (hyear : settings.yearOf date = year)
    (h : settings.LeavesOut date) : settings.edge year settings.periods ≤ date.number := by
  have hdateYear := year_of_leavesOut valid hfirst hlast hyear h
  obtain ⟨htemplate, hfebruary, hday, hleap, hmonth, h28⟩ := h
  cases hmonths : settings.template.monthsPerPeriod? with
  | some months =>
    obtain ⟨hy, hm, hd⟩ := anniversary_spec valid hfirst hlast
    rw [hdateYear] at hleap
    rw [hfebruary, Date.monthLength_february, Date.monthLength_february, if_pos hleap,
      Date.not_isLeapYear_of_succ hleap, if_neg Bool.false_ne_true] at hd
    have hdate : date = settings.anniversary year := by
      refine Date.eq_of_parts (by rw [hdateYear, hy]) (by rw [hmonth, hm, hfebruary]) ?_
      rw [hd, h28]
      omega
    rw [edge_periods_eq hmonths, hdate]
  | none => exact absurd (FiscalTemplate.eq_fourWeek_of_monthsPerPeriod? hmonths) htemplate

theorem edge_periods_le_iff (valid : settings.validate = .ok ()) (hfirst : -262143 ≤ year)
    (hlast : year + 1 < 262142) (hyear : settings.yearOf date = year) :
    settings.edge year settings.periods ≤ date.number ↔ settings.LeavesOut date := by
  constructor
  · exact leavesOut_of_edge_le valid hfirst hlast hyear
  · exact edge_le_of_leavesOut valid hfirst hlast hyear

end LeavesOut

end FiscalSettings

end RecordQuery
