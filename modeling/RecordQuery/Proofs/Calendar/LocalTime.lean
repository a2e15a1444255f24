import RecordQuery.Calendar.Instant
import RecordQuery.Proofs.Calendar.Moves

namespace RecordQuery.Instant

def seconds (t : Instant) : Int := t.date.number * 86400 + t.second

def nanoseconds (t : Instant) : Int := t.seconds * 1000000000 + t.nano

abbrev IsLeap (t : Instant) : Prop := 1000000000 ≤ t.nano

instance : LE Instant := ⟨fun a b => compare a b ≠ .gt⟩

instance : LT Instant := ⟨fun a b => compare a b = .lt⟩

instance (a b : Instant) : Decidable (a ≤ b) := inferInstanceAs (Decidable (compare a b ≠ .gt))

instance (a b : Instant) : Decidable (a < b) := inferInstanceAs (Decidable (compare a b = .lt))

variable {a b t : Instant} {date day : Date} {offset : UtcOffset}

theorem lt_iff : a < b ↔ a.seconds < b.seconds ∨ (a.seconds = b.seconds ∧ a.nano < b.nano) := by
  have ha := a.second_lt
  have hb := b.second_lt
  change (compare a.date.number b.date.number).then
    ((compare a.second b.second).then (compare a.nano b.nano)) = .lt ↔ _
  simp only [Ordering.then_eq_lt, compare_lt_iff_lt, compare_eq_iff_eq, seconds]
  omega

theorem le_iff : a ≤ b ↔ a.seconds < b.seconds ∨ (a.seconds = b.seconds ∧ a.nano ≤ b.nano) := by
  have ha := a.second_lt
  have hb := b.second_lt
  change (compare a.date.number b.date.number).then
    ((compare a.second b.second).then (compare a.nano b.nano)) ≠ .gt ↔ _
  simp only [ne_eq, Ordering.then_eq_gt, compare_gt_iff_gt, compare_eq_iff_eq, seconds]
  omega

instance : Preorder Instant where
  le_refl a := by
    rw [le_iff]
    omega
  le_trans a b c h h' := by
    rw [le_iff] at *
    omega
  lt_iff_le_not_ge a b := by
    rw [lt_iff, le_iff, le_iff]
    omega

theorem not_lt_iff : ¬ a < b ↔ b ≤ a := by
  rw [lt_iff, le_iff]
  omega

theorem eq_of_seconds (hs : a.seconds = b.seconds) (hn : a.nano = b.nano) : a = b := by
  have ha := a.second_lt
  have hb := b.second_lt
  unfold seconds at hs
  have hdate : a.date = b.date := Date.number_injective (by omega)
  have hsecond : a.second = b.second := by
    rw [hdate] at hs
    omega
  cases a
  cases b
  simp_all

theorem seconds_bounds (t : Instant) :
    Date.least.number * 86400 ≤ t.seconds ∧ t.seconds < (Date.greatest.number + 1) * 86400 := by
  have hlow := t.date.number_least_le
  have hhigh := t.date.number_le_greatest
  have hsecond := t.second_lt
  unfold seconds
  omega

theorem ofSecond?_eq_some_iff {second : Int} {nano : Nat} (hnano : nano < 2000000000) :
    ofSecond? date second nano = some t ↔
      t.seconds = date.number * 86400 + second ∧ t.nano = nano := by
  have hsecond : (second % 86400).toNat < 86400 := by omega
  have hparts : ∀ found : Date, ofParts? found (second % 86400).toNat nano =
      some ⟨found, (second % 86400).toNat, nano, hsecond, hnano⟩ :=
    fun _ => dif_pos ⟨hsecond, hnano⟩
  unfold ofSecond?
  rw [Option.bind_eq_some_iff]
  constructor
  · rintro ⟨found, hfound, ht⟩
    have hnumber := Date.number_of_ofNumber? hfound
    rw [hparts] at ht
    obtain rfl := Option.some.inj ht
    refine ⟨?_, rfl⟩
    simp only [seconds]
    omega
  · rintro ⟨hs, hn⟩
    have hlt := t.second_lt
    unfold seconds at hs
    refine ⟨t.date, Date.ofNumber?_eq_some_iff.mpr (by omega), ?_⟩
    rw [hparts, Option.some.injEq]
    apply eq_of_seconds
    · simp only [seconds]
      omega
    · exact hn.symm

theorem exists_seconds (s : Int) (nano : Nat) (hlow : Date.least.number * 86400 ≤ s)
    (hhigh : s < (Date.greatest.number + 1) * 86400) (hnano : nano < 2000000000) :
    ∃ t : Instant, t.seconds = s ∧ t.nano = nano := by
  obtain ⟨found, hfound⟩ := Date.exists_ofNumber? (n := s / 86400) (by omega) (by omega)
  have hnumber := Date.number_of_ofNumber? hfound
  refine ⟨⟨found, (s % 86400).toNat, nano, by omega, hnano⟩, ?_, rfl⟩
  simp only [seconds]
  omega

section Shift

variable {n m : Int}

def secondsFrom (t : Instant) (n : Int) : Int :=
  if t.IsLeap ∧ n < 0 then t.seconds + 1 + n else t.seconds + n

def nanoFrom (t : Instant) (n : Int) : Nat :=
  if t.IsLeap ∧ n ≠ 0 then t.nano - 1000000000 else t.nano

theorem nanoFrom_lt (t : Instant) (n : Int) : t.nanoFrom n < 2000000000 := by
  have hnano := t.nano_lt
  unfold nanoFrom
  split <;> omega

theorem addSeconds?_eq_some_iff :
    t.addSeconds? n = some b ↔ b.seconds = t.secondsFrom n ∧ b.nano = t.nanoFrom n := by
  have hnano := t.nano_lt
  unfold addSeconds? shift? secondsFrom nanoFrom IsLeap
  simp only [lt_irrefl, false_and, or_false]
  by_cases hstay : 1000000000 ≤ t.nano ∧ n = 0
  · -- The move stays inside of the leap second.
    obtain ⟨hleap, rfl⟩ := hstay
    have hparts : ofParts? t.date t.second (t.nano + 0 : Int).toNat = some t :=
      dif_pos ⟨t.second_lt, by omega⟩
    rw [if_pos ⟨hleap, by omega, by omega⟩, hparts, if_neg (by omega), if_neg (by omega),
      Option.some.injEq]
    constructor
    · rintro rfl
      exact ⟨by omega, rfl⟩
    · rintro ⟨hs, hn⟩
      exact eq_of_seconds (by omega) hn.symm
  · rw [if_neg (by omega), ofSecond?_eq_some_iff (by split <;> omega)]
    unfold seconds
    repeat' split
    all_goals omega

theorem addSeconds?_eq_none (h : n < -100000000000000 ∨ 100000000000000 < n) :
    t.addSeconds? n = none := by
  have hleast : Date.least.number = -95746129 := by decide
  have hgreatest : Date.greatest.number = 95745399 := by decide
  cases hmove : t.addSeconds? n with
  | none => rfl
  | some moved =>
    obtain ⟨hseconds, -⟩ := addSeconds?_eq_some_iff.mp hmove
    obtain ⟨hlow, hhigh⟩ := t.seconds_bounds
    obtain ⟨hlow', hhigh'⟩ := moved.seconds_bounds
    unfold secondsFrom at hseconds
    split at hseconds <;> omega

theorem addSeconds?_mono (hle : m ≤ n) (ha : t.addSeconds? m = some a)
    (hb : t.addSeconds? n = some b) : a ≤ b := by
  obtain ⟨has, han⟩ := addSeconds?_eq_some_iff.mp ha
  obtain ⟨hbs, hbn⟩ := addSeconds?_eq_some_iff.mp hb
  have hnano := t.nano_lt
  rw [le_iff, has, han, hbs, hbn]
  unfold secondsFrom nanoFrom IsLeap
  repeat' split
  all_goals omega

theorem exists_addSeconds?_between (hb : t.addSeconds? n = some b)
    (hm : (0 ≤ m ∧ m ≤ n) ∨ (n ≤ m ∧ m ≤ 0)) : ∃ a, t.addSeconds? m = some a := by
  obtain ⟨hbs, -⟩ := addSeconds?_eq_some_iff.mp hb
  obtain ⟨hlow, hhigh⟩ := t.seconds_bounds
  obtain ⟨hlow', hhigh'⟩ := b.seconds_bounds
  have hbetween : Date.least.number * 86400 ≤ t.secondsFrom m ∧
      t.secondsFrom m < (Date.greatest.number + 1) * 86400 := by
    rw [hbs] at hlow' hhigh'
    unfold secondsFrom at *
    repeat' split at *
    all_goals omega
  obtain ⟨a, ha⟩ := exists_seconds _ _ hbetween.1 hbetween.2 (t.nanoFrom_lt m)
  exact ⟨a, addSeconds?_eq_some_iff.mpr ha⟩

theorem stepwise_addSeconds? (t : Instant) : Stepwise t.addSeconds? :=
  ⟨exists_addSeconds?_between, addSeconds?_mono⟩

theorem stepwise_addMonths? (t : Instant) : Stepwise t.addMonths? where
  between hfar hm := by
    obtain ⟨far, hdate, -⟩ := Option.map_eq_some_iff.mp hfar
    obtain ⟨near, hnear⟩ := t.date.stepwise_addMonths?.between hdate hm
    exact ⟨{ t with date := near }, by rw [addMonths?, hnear]; rfl⟩
  mono hle hnear hfar := by
    obtain ⟨near, hdate, rfl⟩ := Option.map_eq_some_iff.mp hnear
    obtain ⟨far, hdate', rfl⟩ := Option.map_eq_some_iff.mp hfar
    have hmono : near.number ≤ far.number := t.date.stepwise_addMonths?.mono hle hdate hdate'
    rw [le_iff]
    simp only [seconds]
    omega

theorem subMillisecond?_eq_some_iff (h : t.nano = 0) :
    t.subMillisecond? = some b ↔ b.seconds = t.seconds - 1 ∧ b.nano = 999000000 := by
  unfold subMillisecond? shift?
  dsimp only
  rw [if_neg (by omega), ofSecond?_eq_some_iff (by omega), if_neg (by omega), if_neg (by omega), h]
  simp only [seconds]
  omega

end Shift

section LocalDay

theorem localDate?_eq_some_iff :
    t.localDate? offset = some day ↔ day.number = (t.seconds + offset.seconds) / 86400 := by
  unfold localDate? Date.addDays?
  rw [Date.ofNumber?_eq_some_iff]
  unfold seconds
  omega

theorem midnight_addSeconds?_eq_some_iff {n : Int} :
    (midnight date).addSeconds? n = some t ↔
      t.seconds = date.number * 86400 + n ∧ t.nano = 0 := by
  have hleap : ¬ (midnight date).IsLeap := show ¬ 1000000000 ≤ 0 by omega
  have hseconds : (midnight date).seconds = date.number * 86400 := by
    simp only [seconds, midnight]
    omega
  rw [addSeconds?_eq_some_iff, secondsFrom, nanoFrom, if_neg (fun h => hleap h.1),
    if_neg (fun h => hleap h.1), hseconds]
  rfl

theorem startOfDay_spec (date : Date) (offset : UtcOffset) :
    (startOfDay date offset).seconds =
        max (Date.least.number * 86400) (date.number * 86400 - offset.seconds) ∧
      (startOfDay date offset).nano = 0 := by
  have hlow := date.number_least_le
  have hhigh := date.number_le_greatest
  have hoffset := offset.bounded
  unfold startOfDay
  cases hmove : (midnight date).addSeconds? (-offset.seconds) with
  | some found =>
    obtain ⟨hs, hn⟩ := midnight_addSeconds?_eq_some_iff.mp hmove
    have hbound := found.seconds_bounds.1
    rw [Option.getD_some]
    exact ⟨by omega, hn⟩
  | none =>
    have hbefore : date.number * 86400 - offset.seconds < Date.least.number * 86400 := by
      by_contra hle
      obtain ⟨found, hfound⟩ := exists_seconds (date.number * 86400 - offset.seconds) 0 (by omega)
        (by omega) (by omega)
      rw [midnight_addSeconds?_eq_some_iff.mpr ⟨by omega, hfound.2⟩] at hmove
      contradiction
    rw [Option.getD_none, if_pos (by omega)]
    refine ⟨?_, rfl⟩
    simp only [seconds, least, midnight]
    omega

theorem endOfDay_spec (offset : UtcOffset) (h : date.number < Date.greatest.number) :
    (endOfDay date offset).seconds = (date.number + 1) * 86400 - offset.seconds - 1 ∧
      (endOfDay date offset).nano = 999000000 := by
  have hlow := date.number_least_le
  have hoffset := offset.bounded
  obtain ⟨next, hnext, hnumber⟩ := Date.exists_addDays? date 1 (by omega) (by omega)
  obtain ⟨hs, hn⟩ := startOfDay_spec next offset
  have hbound := (startOfDay next offset).seconds_bounds.2
  obtain ⟨last, hlast⟩ := exists_seconds ((startOfDay next offset).seconds - 1) 999000000
    (by omega) (by omega) (by omega)
  unfold endOfDay
  rw [hnext, Option.bind_some, (subMillisecond?_eq_some_iff hn).mpr hlast, Option.getD_some]
  exact ⟨by omega, hlast.2⟩

theorem endOfDay_greatest (offset : UtcOffset) (h : date.number = Date.greatest.number) :
    endOfDay date offset = greatest := by
  have hnone : date.addDays? 1 = none := by
    cases hmove : date.addDays? 1 with
    | none => rfl
    | some next =>
      have hnumber := Date.number_of_ofNumber? hmove
      have hbound := next.number_le_greatest
      omega
  rw [endOfDay, hnone]
  rfl

theorem startOfDay_mono (offset : UtcOffset) (h : date ≤ day) :
    startOfDay date offset ≤ startOfDay day offset := by
  obtain ⟨hs, hn⟩ := startOfDay_spec date offset
  obtain ⟨hs', hn'⟩ := startOfDay_spec day offset
  have hnumber : date.number ≤ day.number := h
  rw [le_iff]
  omega

theorem endOfDay_mono (offset : UtcOffset) (h : date ≤ day) :
    endOfDay date offset ≤ endOfDay day offset := by
  have hnumber : date.number ≤ day.number := h
  have hhigh := day.number_le_greatest
  have hoffset := offset.bounded
  rw [le_iff]
  rcases lt_or_eq_of_le hhigh with hlt | heq
  · obtain ⟨hs, hn⟩ := endOfDay_spec offset (show date.number < Date.greatest.number by omega)
    obtain ⟨hs', hn'⟩ := endOfDay_spec offset hlt
    omega
  · rw [endOfDay_greatest offset heq]
    rcases lt_or_eq_of_le (hnumber.trans hhigh) with hlt' | heq'
    · obtain ⟨hs, hn⟩ := endOfDay_spec offset hlt'
      have hg : greatest.seconds = Date.greatest.number * 86400 + 86399 := rfl
      have hgn : greatest.nano = 999999999 := rfl
      omega
    · rw [endOfDay_greatest offset heq']
      omega

theorem startOfDay_le_iff (hday : t.localDate? offset = some day)
    (hfirst : Date.least.number < date.number) : startOfDay date offset ≤ t ↔ date ≤ day := by
  obtain ⟨hs, hn⟩ := startOfDay_spec date offset
  have hoffset := offset.bounded
  have hnumber := localDate?_eq_some_iff.mp hday
  change _ ↔ date.number ≤ day.number
  rw [le_iff]
  omega

theorem le_endOfDay_iff (hday : t.localDate? offset = some day) (hleap : ¬ t.IsLeap)
    (hmilli : t.nano % 1000000 = 0) (hlast : date.number < Date.greatest.number) :
    t ≤ endOfDay date offset ↔ day ≤ date := by
  obtain ⟨hs, hn⟩ := endOfDay_spec offset hlast
  have hnumber := localDate?_eq_some_iff.mp hday
  unfold IsLeap at hleap
  change _ ↔ day.number ≤ date.number
  rw [le_iff]
  omega

theorem nanoseconds_endOfDay_add {next : Date} (offset : UtcOffset)
    (h : date.number + 1 = next.number) :
    (endOfDay date offset).nanoseconds + 1000000 = (startOfDay next offset).nanoseconds := by
  have hlow := date.number_least_le
  have hhigh := next.number_le_greatest
  have hoffset := offset.bounded
  obtain ⟨hs, hn⟩ := endOfDay_spec offset (show date.number < Date.greatest.number by omega)
  obtain ⟨hs', hn'⟩ := startOfDay_spec next offset
  unfold nanoseconds
  rw [hs, hn, hs', hn']
  omega

end LocalDay

end RecordQuery.Instant
