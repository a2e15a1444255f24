import RecordQuery.Proofs.Calendar.DayNumber

namespace RecordQuery

/-- A move by counts: up to a count that leads to a place every count does, and later counts lead
to later places. -/
structure Stepwise {α : Type} [LE α] (move : Int → Option α) : Prop where
  between {m n : Int} {far : α} :
    move n = some far → (0 ≤ m ∧ m ≤ n) ∨ (n ≤ m ∧ m ≤ 0) → ∃ near, move m = some near
  mono {m n : Int} {near far : α} : m ≤ n → move m = some near → move n = some far → near ≤ far

namespace Stepwise

variable {α : Type} [LE α] {move : Int → Option α} {x y : Int} {far : α}

theorem scale (h : Stepwise move) (factor : Nat) : Stepwise fun n => move (factor * n) where
  between hfar hm := by
    apply h.between hfar
    rcases hm with ⟨hlow, hhigh⟩ | ⟨hlow, hhigh⟩
    · exact .inl ⟨by positivity, Int.mul_le_mul_of_nonneg_left hhigh (by positivity)⟩
    · exact .inr ⟨Int.mul_le_mul_of_nonneg_left hlow (by positivity),
        Int.mul_nonpos_of_nonneg_of_nonpos (by positivity) hhigh⟩
  mono hle := h.mono (Int.mul_le_mul_of_nonneg_left hle (by positivity))

theorem forward (h : Stepwise move) (hx : 0 ≤ x) (hle : x ≤ y) (hfar : move y = some far) :
    ∃ near, move x = some near ∧ near ≤ far :=
  let ⟨near, hnear⟩ := h.between hfar (.inl ⟨hx, hle⟩)
  ⟨near, hnear, h.mono hle hnear hfar⟩

theorem backward (h : Stepwise move) (hx : 0 ≤ x) (hle : x ≤ y) (hfar : move (-y) = some far) :
    ∃ near, move (-x) = some near ∧ far ≤ near :=
  let ⟨near, hnear⟩ := h.between hfar (.inr (by omega))
  ⟨near, hnear, h.mono (by omega) hfar hnear⟩

end Stepwise

namespace Date

variable {date moved near far first : Date} {m n : Int}

theorem monthIndex_bounds (date : Date) :
    firstYear * 12 ≤ date.monthIndex ∧ date.monthIndex < (lastYear + 1) * 12 := by
  obtain ⟨hfirst, hlast, hm, hm', -, -⟩ := date.valid
  unfold monthIndex firstYear lastYear
  omega

theorem le_iff_monthIndex_le (h : first.day = 1) :
    first ≤ date ↔ first.monthIndex ≤ date.monthIndex := by
  refine ⟨monthIndex_le_of_le, fun hle => ?_⟩
  change first.number ≤ date.number
  rcases Int.lt_or_eq_of_le hle with hlt | heq
  · exact le_of_lt (number_lt_of_monthIndex_lt hlt)
  · have hdays := number_sub_number heq
    have hday := date.valid.first_day
    omega

theorem addDays?_eq_some_iff : date.addDays? n = some moved ↔ moved.number = date.number + n :=
  ofNumber?_eq_some_iff

theorem addDays?_eq_none (h : n < -1000000000 ∨ 1000000000 < n) : date.addDays? n = none := by
  have hlow := date.number_least_le
  have hhigh := date.number_le_greatest
  have hleast : least.number = -95746129 := by decide
  have hgreatest : greatest.number = 95745399 := by decide
  cases hmove : date.addDays? n with
  | none => rfl
  | some moved =>
    have hnumber := addDays?_eq_some_iff.mp hmove
    have hlow' := moved.number_least_le
    have hhigh' := moved.number_le_greatest
    omega

theorem exists_addDays?_between (h : date.addDays? n = some far)
    (hm : (0 ≤ m ∧ m ≤ n) ∨ (n ≤ m ∧ m ≤ 0)) : ∃ near, date.addDays? m = some near := by
  have hfar := addDays?_eq_some_iff.mp h
  have hlow := date.number_least_le
  have hhigh := date.number_le_greatest
  have hlow' := far.number_least_le
  have hhigh' := far.number_le_greatest
  obtain ⟨near, hnear, -⟩ := exists_addDays? date m (by omega) (by omega)
  exact ⟨near, hnear⟩

theorem addDays?_mono (hle : m ≤ n) (hnear : date.addDays? m = some near)
    (hfar : date.addDays? n = some far) : near ≤ far := by
  rw [addDays?_eq_some_iff] at hnear hfar
  change near.number ≤ far.number
  omega

theorem addMonths?_spec (h : date.addMonths? n = some moved) :
    moved.monthIndex = date.monthIndex + n ∧
      moved.day = min date.day (monthLength moved.year moved.month) := by
  have hm := date.valid.first_month
  unfold addMonths? ofParts? at h
  dsimp only at h
  split at h
  · obtain rfl := Option.some.inj h
    refine ⟨?_, rfl⟩
    simp only [monthIndex]
    omega
  · contradiction

theorem addMonths?_eq_none (h : n < -1000000000 ∨ 1000000000 < n) :
    date.addMonths? n = none := by
  cases hmove : date.addMonths? n with
  | none => rfl
  | some moved =>
    obtain ⟨hindex, -⟩ := addMonths?_spec hmove
    obtain ⟨hlow, hhigh⟩ := date.monthIndex_bounds
    obtain ⟨hlow', hhigh'⟩ := moved.monthIndex_bounds
    unfold firstYear lastYear at *
    omega

theorem exists_addMonths?_between (h : date.addMonths? n = some far)
    (hm : (0 ≤ m ∧ m ≤ n) ∨ (n ≤ m ∧ m ≤ 0)) : ∃ near, date.addMonths? m = some near := by
  obtain ⟨hindex, -⟩ := addMonths?_spec h
  obtain ⟨hlow, hhigh⟩ := date.monthIndex_bounds
  obtain ⟨hlow', hhigh'⟩ := far.monthIndex_bounds
  obtain ⟨near, hnear, -⟩ := exists_addMonths? date m (by omega) (by omega)
  exact ⟨near, hnear⟩

theorem addMonths?_mono (hle : m ≤ n) (hnear : date.addMonths? m = some near)
    (hfar : date.addMonths? n = some far) : near ≤ far := by
  rcases Int.lt_or_eq_of_le hle with hlt | rfl
  · obtain ⟨hindex, -⟩ := addMonths?_spec hnear
    obtain ⟨hindex', -⟩ := addMonths?_spec hfar
    exact le_of_lt (number_lt_of_monthIndex_lt (show near.monthIndex < far.monthIndex by omega))
  · obtain rfl := Option.some.inj (hnear.symm.trans hfar)
    exact Int.le_refl _

theorem stepwise_addDays? (date : Date) : Stepwise date.addDays? :=
  ⟨exists_addDays?_between, addDays?_mono⟩

theorem stepwise_addMonths? (date : Date) : Stepwise date.addMonths? :=
  ⟨exists_addMonths?_between, addMonths?_mono⟩

end Date

end RecordQuery
