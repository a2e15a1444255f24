import Mathlib.Tactic.Linarith
import RecordQuery.Calendar.Date

namespace RecordQuery.Date

theorem monthLength_bounds (year : Int) (month : Nat) :
    28 ≤ monthLength year month ∧ monthLength year month ≤ 31 := by
  unfold monthLength
  split
  · split <;> omega
  all_goals omega

theorem monthLength_eq {month : Nat} (hm : month ≠ 2) (y z : Int) :
    monthLength y month = monthLength z month := by
  unfold monthLength
  split
  · exact absurd rfl hm
  all_goals rfl

theorem monthLength_february (year : Int) :
    monthLength year 2 = if isLeapYear year then 29 else 28 := rfl

theorem not_isLeapYear_of_succ {year : Int} (h : isLeapYear (year + 1) = true) :
    isLeapYear year = false := by
  unfold isLeapYear at *
  simp only [Bool.and_eq_true, Bool.or_eq_true, bne_iff_ne, beq_iff_eq, ne_eq, Bool.and_eq_false_iff,
    beq_eq_false_iff_ne] at *
  omega

theorem daysBeforeMonth_succ (year : Int) {month : Nat} (hm : 1 ≤ month) :
    daysBeforeMonth year (month + 1) = daysBeforeMonth year month + monthLength year month := by
  obtain ⟨m, rfl⟩ : ∃ m, month = m + 1 := ⟨month - 1, by omega⟩
  rfl

theorem daysBeforeMonth_mono (year : Int) {m n : Nat} (hm : 1 ≤ m) (h : m ≤ n) :
    daysBeforeMonth year m ≤ daysBeforeMonth year n := by
  induction n, h using Nat.le_induction with
  | base => exact Nat.le_refl _
  | succ n hn ih =>
    rw [daysBeforeMonth_succ year (by omega)]
    omega

theorem daysBeforeMonth_close (y z : Int) (month : Nat) :
    (month ≤ 2 → daysBeforeMonth y month = daysBeforeMonth z month) ∧
      daysBeforeMonth y month ≤ daysBeforeMonth z month + 1 := by
  induction month with
  | zero => simp [daysBeforeMonth]
  | succ m ih =>
    obtain ⟨heq, hclose⟩ := ih
    rcases (show m = 0 ∨ m = 2 ∨ (1 ≤ m ∧ m ≠ 2) by omega) with rfl | rfl | ⟨hpos, hne⟩
    · simp [daysBeforeMonth]
    · have hbefore := heq (by omega)
      refine ⟨by omega, ?_⟩
      rw [daysBeforeMonth_succ y (by omega), daysBeforeMonth_succ z (by omega), hbefore]
      simp only [monthLength]
      split <;> split <;> omega
    · have hlength := monthLength_eq hne y z
      rw [daysBeforeMonth_succ y hpos, daysBeforeMonth_succ z hpos, hlength]
      exact ⟨fun hle => by rw [heq (by omega)], by omega⟩

theorem daysBeforeMonth_thirteen (year : Int) :
    daysBeforeMonth year 13 = if isLeapYear year then 366 else 365 := by
  simp only [daysBeforeMonth, monthLength]
  split <;> rfl

theorem daysBeforeYear_succ (year : Int) :
    daysBeforeYear (year + 1) = daysBeforeYear year + daysBeforeMonth year 13 := by
  rw [daysBeforeMonth_thirteen]
  unfold daysBeforeYear isLeapYear
  simp only [Bool.and_eq_true, Bool.or_eq_true, bne_iff_ne, beq_iff_eq, ne_eq]
  split
  · omega
  · omega

theorem yearLength_bounds (year : Int) :
    365 ≤ daysBeforeMonth year 13 ∧ daysBeforeMonth year 13 ≤ 366 := by
  rw [daysBeforeMonth_thirteen]
  split <;> omega

theorem daysBeforeYear_mono {y z : Int} (h : y ≤ z) : daysBeforeYear y ≤ daysBeforeYear z := by
  obtain ⟨n, rfl⟩ : ∃ n : Nat, z = y + n := ⟨(z - y).toNat, by omega⟩
  clear h
  induction n with
  | zero => simp
  | succ n ih =>
    have hs := daysBeforeYear_succ (y + n)
    have hp : y + ((n + 1 : Nat) : Int) = y + n + 1 := by omega
    rw [hp, hs]
    omega

theorem day_le (date : Date) :
    daysBeforeMonth date.year date.month + date.day ≤
      daysBeforeMonth date.year (date.month + 1) := by
  rw [daysBeforeMonth_succ _ date.valid.first_month]
  have h := date.valid.last_day
  omega

theorem number_bounds (date : Date) :
    daysBeforeYear date.year < date.number ∧ date.number ≤ daysBeforeYear (date.year + 1) := by
  have hd := date.valid.first_day
  have hl := date.day_le
  have hm := daysBeforeMonth_mono date.year (m := date.month + 1) (n := 13) (by omega)
    (by have := date.valid.last_month; omega)
  rw [daysBeforeYear_succ]
  unfold number
  omega

def monthIndex (date : Date) : Int := date.year * 12 + date.month - 1

theorem number_lt_of_monthIndex_lt {a b : Date} (h : a.monthIndex < b.monthIndex) :
    a.number < b.number := by
  have ha := a.valid
  have hb := b.valid
  have ha1 := ha.first_month
  have ha12 := ha.last_month
  have hb1 := hb.first_month
  have hb12 := hb.last_month
  unfold monthIndex at h
  rcases lt_trichotomy a.year b.year with hy | hy | hy
  · have hstep := daysBeforeYear_mono (show a.year + 1 ≤ b.year by omega)
    have hla := a.number_bounds.2
    have hlb := b.number_bounds.1
    omega
  · have hmonth : a.month + 1 ≤ b.month := by omega
    have hstep := daysBeforeMonth_mono b.year (by omega) hmonth
    have hday := a.day_le
    have hfirst := hb.first_day
    unfold number
    rw [hy] at hday ⊢
    omega
  · omega

theorem monthIndex_le_of_le {a b : Date} (h : a ≤ b) : a.monthIndex ≤ b.monthIndex := by
  by_contra hlt
  have hn := number_lt_of_monthIndex_lt (not_le.mp hlt)
  have hle : a.number ≤ b.number := h
  omega

theorem eq_of_parts {a b : Date} (hy : a.year = b.year) (hm : a.month = b.month)
    (hd : a.day = b.day) : a = b := by
  cases a
  cases b
  simp_all

theorem parts_of_monthIndex {date : Date} {year : Int} {month : Nat} (hm : 1 ≤ month)
    (hm' : month ≤ 12) (h : date.monthIndex = year * 12 + month - 1) :
    date.year = year ∧ date.month = month := by
  have hfirst := date.valid.first_month
  have hlast := date.valid.last_month
  unfold monthIndex at h
  constructor <;> omega

theorem same_month {a b : Date} (h : a.monthIndex = b.monthIndex) :
    a.year = b.year ∧ a.month = b.month :=
  parts_of_monthIndex b.valid.first_month b.valid.last_month h

theorem eq_of_monthIndex_day {a b : Date} (hi : a.monthIndex = b.monthIndex)
    (hd : a.day = b.day) : a = b := by
  obtain ⟨hy, hm⟩ := same_month hi
  exact eq_of_parts hy hm hd

theorem number_sub_number {a b : Date} (hi : a.monthIndex = b.monthIndex) :
    a.number - b.number = a.day - b.day := by
  obtain ⟨hy, hm⟩ := same_month hi
  unfold number
  rw [hy, hm]
  omega

theorem number_injective {a b : Date} (h : a.number = b.number) : a = b := by
  rcases lt_trichotomy a.monthIndex b.monthIndex with hlt | heq | hgt
  · have := number_lt_of_monthIndex_lt hlt
    omega
  · have hdays := number_sub_number heq
    exact eq_of_monthIndex_day heq (by omega)
  · have := number_lt_of_monthIndex_lt hgt
    omega

theorem ofParts?_eq_some {year : Int} {month day : Nat} (h : Valid year month day) :
    ofParts? year month day = some ⟨year, month, day, h⟩ := by
  simp [ofParts?, h]

theorem daysBeforeYear_bounds (year : Int) :
    146097 * (year - 1) - 699 ≤ 400 * daysBeforeYear year ∧
      400 * daysBeforeYear year ≤ 146097 * (year - 1) + 396 := by
  unfold daysBeforeYear
  omega

theorem yearOfNumber_eq {n year : Int} (hlow : daysBeforeYear year < n)
    (hhigh : n ≤ daysBeforeYear (year + 1)) : yearOfNumber n = year := by
  have hb := daysBeforeYear_bounds year
  have hb' := daysBeforeYear_bounds (year + 1)
  have hguess : (n - 1) * 400 / 146097 + 1 = year - 1 ∨ (n - 1) * 400 / 146097 + 1 = year := by
    omega
  unfold yearOfNumber
  simp only
  rcases hguess with hg | hg
  · rw [hg]
    have hprev := daysBeforeYear_mono (show year - 1 ≤ year by omega)
    have hnext : year - 1 + 1 = year := by omega
    rw [if_neg (by omega), hnext, if_pos hlow]
  · rw [hg, if_neg (by omega), if_neg (by omega)]

theorem exists_yearOfNumber (n : Int) :
    ∃ year, daysBeforeYear year < n ∧ n ≤ daysBeforeYear (year + 1) ∧ yearOfNumber n = year := by
  have hlow := daysBeforeYear_bounds ((n - 1) * 400 / 146097 + 1)
  have hhigh := daysBeforeYear_bounds ((n - 1) * 400 / 146097 + 1 + 1 + 1)
  by_cases h : n ≤ daysBeforeYear ((n - 1) * 400 / 146097 + 1 + 1)
  · exact ⟨_, by omega, h, yearOfNumber_eq (by omega) h⟩
  · exact ⟨_, not_le.mp h, by omega, yearOfNumber_eq (not_le.mp h) (by omega)⟩

theorem splitDay_spec (year : Int) (months month day : Nat) (hm : 1 ≤ month)
    (hmonths : month + months = 12) (hd : 1 ≤ day)
    (hlast : daysBeforeMonth year month + day ≤ daysBeforeMonth year 13) :
    ∃ m d, splitDay year month day months = (m, d) ∧ 1 ≤ m ∧ m ≤ 12 ∧ 1 ≤ d ∧
      d ≤ monthLength year m ∧
      daysBeforeMonth year m + d = daysBeforeMonth year month + day := by
  induction months generalizing month day with
  | zero =>
    obtain rfl : month = 12 := by omega
    have hdec : daysBeforeMonth year 13 = daysBeforeMonth year 12 + monthLength year 12 := rfl
    exact ⟨12, day, rfl, hm, by omega, hd, by omega, rfl⟩
  | succ months ih =>
    by_cases hshort : day ≤ monthLength year month
    · exact ⟨month, day, by simp [splitDay, hshort], hm, by omega, hd, hshort, rfl⟩
    · have hstep := daysBeforeMonth_succ year hm
      obtain ⟨m, d, hsplit, h1, h12, hd1, hdl, heq⟩ :=
        ih (month + 1) (day - monthLength year month) (by omega) (by omega) (by omega) (by omega)
      exact ⟨m, d, by simp [splitDay, hshort, hsplit], h1, h12, hd1, hdl, by omega⟩

theorem ofNumber?_eq_ofParts? (n : Int) :
    ∃ year month day, ofNumber? n = ofParts? year month day ∧ 1 ≤ month ∧ month ≤ 12 ∧ 1 ≤ day ∧
      day ≤ monthLength year month ∧
      daysBeforeYear year + daysBeforeMonth year month + day = n := by
  obtain ⟨year, hlow, hhigh, hyear⟩ := exists_yearOfNumber n
  have hlength := daysBeforeYear_succ year
  obtain ⟨month, day, hsplit, h1, h12, hd1, hdl, heq⟩ :=
    splitDay_spec year 11 1 (n - daysBeforeYear year).toNat (by omega) rfl (by omega) (by
      have hzero : daysBeforeMonth year 1 = 0 := rfl
      omega)
  have hzero : daysBeforeMonth year 1 = 0 := rfl
  refine ⟨year, month, day, ?_, h1, h12, hd1, hdl, by omega⟩
  simp only [ofNumber?, hyear, hsplit]

theorem number_of_ofNumber? {n : Int} {date : Date} (h : ofNumber? n = some date) :
    date.number = n := by
  obtain ⟨year, month, day, hparts, -, -, -, -, heq⟩ := ofNumber?_eq_ofParts? n
  rw [hparts] at h
  by_cases hv : Valid year month day
  · rw [ofParts?_eq_some hv] at h
    obtain rfl := Option.some.inj h
    exact heq
  · simp [ofParts?, hv] at h

theorem number_least_le (date : Date) : least.number ≤ date.number := by
  have hnumber := date.number_bounds.1
  have hyear := daysBeforeYear_mono date.valid.first_year
  have hleast : least.number = daysBeforeYear (-262143) + 1 := by decide
  omega

theorem number_le_greatest (date : Date) : date.number ≤ greatest.number := by
  have hnumber := date.number_bounds.2
  have hyear := daysBeforeYear_mono (show date.year + 1 ≤ 262142 + 1 by
    have := date.valid.last_year; omega)
  have hgreatest : greatest.number = daysBeforeYear (262142 + 1) := by decide
  omega

theorem exists_ofNumber? {n : Int} (hlow : least.number ≤ n) (hhigh : n ≤ greatest.number) :
    ∃ date, ofNumber? n = some date := by
  obtain ⟨year, month, day, hparts, h1, h12, hd1, hdl, heq⟩ := ofNumber?_eq_ofParts? n
  have hleast : least.number = daysBeforeYear (-262143) + 1 := by decide
  have hgreatest : greatest.number = daysBeforeYear (262142 + 1) := by decide
  have hbefore := daysBeforeMonth_mono year (show 1 ≤ month + 1 by omega)
    (show month + 1 ≤ 13 by omega)
  rw [daysBeforeMonth_succ year h1] at hbefore
  have hlength := daysBeforeYear_succ year
  have hfirst : -262143 ≤ year := by
    by_contra hlt
    have := daysBeforeYear_mono (show year + 1 ≤ -262143 by omega)
    omega
  have hlast : year ≤ 262142 := by
    by_contra hlt
    have := daysBeforeYear_mono (show 262142 + 1 ≤ year by omega)
    omega
  exact ⟨_, hparts.trans (ofParts?_eq_some ⟨hfirst, hlast, h1, h12, hd1, hdl⟩)⟩

theorem ofNumber?_number (date : Date) : ofNumber? date.number = some date := by
  obtain ⟨found, hfound⟩ := exists_ofNumber? date.number_least_le date.number_le_greatest
  rw [hfound, number_injective (number_of_ofNumber? hfound)]

theorem ofNumber?_eq_some_iff {n : Int} {date : Date} :
    ofNumber? n = some date ↔ date.number = n := by
  constructor
  · exact number_of_ofNumber?
  · rintro rfl
    exact ofNumber?_number date

theorem exists_addDays? (date : Date) (days : Int) (hlow : least.number ≤ date.number + days)
    (hhigh : date.number + days ≤ greatest.number) :
    ∃ moved, date.addDays? days = some moved ∧ moved.number = date.number + days := by
  obtain ⟨moved, hmoved⟩ := exists_ofNumber? hlow hhigh
  exact ⟨moved, hmoved, number_of_ofNumber? hmoved⟩

theorem number_previous {date : Date} (h : least.number < date.number) :
    date.previous.number = date.number - 1 := by
  have hhigh := date.number_le_greatest
  obtain ⟨before, hbefore, hnumber⟩ :=
    exists_addDays? date (-1) (by omega) (by omega)
  rw [previous, hbefore, Option.getD_some, hnumber]
  omega

theorem exists_addMonths? (date : Date) (months : Int)
    (hlow : firstYear * 12 ≤ date.monthIndex + months)
    (hhigh : date.monthIndex + months < (lastYear + 1) * 12) :
    ∃ moved, date.addMonths? months = some moved ∧
      moved.monthIndex = date.monthIndex + months ∧
      moved.day = min date.day (monthLength moved.year moved.month) := by
  have hm1 := date.valid.first_month
  have hd1 := date.valid.first_day
  have hindex : date.year * 12 + ((date.month - 1 : Nat) : Int) + months =
      date.monthIndex + months := by
    unfold monthIndex
    omega
  unfold firstYear at hlow
  unfold lastYear at hhigh
  have hlength := monthLength_bounds ((date.monthIndex + months) / 12)
    (((date.monthIndex + months) % 12).toNat + 1)
  have hvalid : Valid ((date.monthIndex + months) / 12)
      (((date.monthIndex + months) % 12).toNat + 1)
      (min date.day (monthLength ((date.monthIndex + months) / 12)
        (((date.monthIndex + months) % 12).toNat + 1))) :=
    ⟨by omega, by omega, by omega, by omega, by omega, by omega⟩
  refine ⟨⟨_, _, _, hvalid⟩, ?_, ?_, rfl⟩
  · simp only [addMonths?, hindex]
    exact ofParts?_eq_some hvalid
  · simp only [monthIndex]
    omega

theorem addMonths_spec (date : Date) (months : Int)
    (hlow : firstYear * 12 ≤ date.monthIndex + months)
    (hhigh : date.monthIndex + months < (lastYear + 1) * 12) :
    (date.addMonths months).monthIndex = date.monthIndex + months ∧
      (date.addMonths months).day = min date.day
        (monthLength (date.addMonths months).year (date.addMonths months).month) := by
  obtain ⟨moved, hmoved, hindex, hday⟩ := exists_addMonths? date months hlow hhigh
  rw [addMonths, hmoved, Option.getD_some]
  exact ⟨hindex, hday⟩

theorem addMonths_zero (date : Date) : date.addMonths 0 = date := by
  have hv := date.valid
  have hfirst := hv.first_year
  have hlast := hv.last_year
  have hm := hv.first_month
  have hm' := hv.last_month
  obtain ⟨hindex, hday⟩ := addMonths_spec date 0
    (by unfold firstYear monthIndex; omega) (by unfold lastYear monthIndex; omega)
  rw [Int.add_zero] at hindex
  obtain ⟨hyear, hmonth⟩ := same_month hindex
  rw [hyear, hmonth, Nat.min_eq_left hv.last_day] at hday
  exact eq_of_monthIndex_day hindex hday

end RecordQuery.Date
