import Mathlib.Data.List.Infix
import RecordQuery.Proofs.Relation.Overflows
import RecordQuery.Proofs.Value.Rationals

namespace RecordQuery

namespace Decimal

structure IsWhole (d : Decimal) (n : Int) : Prop where
  scale : d.scale = 0
  mantissa : d.mantissa = n

namespace IsWhole

variable {a b c : Decimal} {m n : Int}

theorem toRat (h : c.IsWhole n) : c.toRat = n := by
  rw [Decimal.toRat, h.scale, h.mantissa]
  simp [powerOfTen]

theorem natAbs_lt (h : c.IsWhole n) : n.natAbs < limit96 := by
  rw [← h.mantissa, natAbs_mantissa]
  exact c.bounded

theorem eq_zero_of_isZero (h : c.IsWhole n) (hzero : c.isZero = true) : n = 0 := by
  rw [← Int.natAbs_eq_zero, ← h.mantissa, natAbs_mantissa]
  exact beq_iff_eq.mp hzero

theorem ofInt64 (n : Int64) : (Decimal.ofInt64 n).IsWhole n.toInt :=
  ⟨rfl, mantissa_ofInt64 n⟩

theorem zero : Decimal.zero.IsWhole 0 := ⟨rfl, rfl⟩

end IsWhole

theorem roundQuotient_zero (n : Nat) : roundQuotient n 0 false = n := by
  simp [roundQuotient, powerOfTen, Nat.mod_one]

theorem fitMagnitude?_whole (n : Nat) :
    fitMagnitude? n 0 0 = if n < limit96 then some (n, 0) else none := by
  rw [fitMagnitude?, roundQuotient_zero]

theorem exists_fit?_of_lt {n : Int} (h : n.natAbs < limit96) :
    ∃ c, fit? n 0 = some c ∧ c.IsWhole n := by
  obtain ⟨c, hc, hmantissa, hscale⟩ := mantissa_of_ofParts? h (Nat.zero_le 28)
  refine ⟨c, ?_, hscale, hmantissa⟩
  rw [fit?, fitMagnitude?_whole, if_pos h, Option.bind_some]
  dsimp only
  rw [signed_natAbs, hc]

theorem fit?_eq_none {n : Int} (h : limit96 ≤ n.natAbs) : fit? n 0 = none := by
  rw [fit?, fitMagnitude?_whole, if_neg h.not_gt, Option.bind_none]

section Sum

variable {a b : Decimal} {m n : Int}

theorem add?_eq_fit? (ha : a.IsWhole m) (hb : b.IsWhole n) (hazero : a.isZero = false)
    (hbzero : b.isZero = false) : a.add? b = fit? (m + n) 0 := by
  rw [add?, hazero, hbzero, ha.scale, hb.scale, ha.mantissa, hb.mantissa]
  simp [powerOfTen]

theorem exists_add? (ha : a.IsWhole m) (hb : b.IsWhole n) (h : (m + n).natAbs < limit96) :
    ∃ c, a.add? b = some c ∧ c.IsWhole (m + n) := by
  cases hazero : a.isZero with
  | true =>
    rw [ha.eq_zero_of_isZero hazero, zero_add]
    exact ⟨b, by rw [add?, if_pos hazero], hb⟩
  | false =>
    cases hbzero : b.isZero with
    | true =>
      rw [hb.eq_zero_of_isZero hbzero, add_zero]
      exact ⟨a, by rw [add?, hazero, if_neg Bool.false_ne_true, if_pos hbzero], ha⟩
    | false =>
      rw [add?_eq_fit? ha hb hazero hbzero]
      exact exists_fit?_of_lt h

theorem add?_eq_none (ha : a.IsWhole m) (hb : b.IsWhole n) (h : limit96 ≤ (m + n).natAbs) :
    a.add? b = none := by
  have hanonzero : a.isZero = false := by
    rw [Bool.eq_false_iff]
    intro hzero
    rw [ha.eq_zero_of_isZero hzero, zero_add] at h
    exact h.not_gt hb.natAbs_lt
  have hbnonzero : b.isZero = false := by
    rw [Bool.eq_false_iff]
    intro hzero
    rw [hb.eq_zero_of_isZero hzero, add_zero] at h
    exact h.not_gt ha.natAbs_lt
  rw [add?_eq_fit? ha hb hanonzero hbnonzero, fit?_eq_none h]

end Sum

end Decimal

def wholeSum (numbers : List Int64) : Int := (numbers.map Int64.toInt).sum

theorem wholeSum_nil : wholeSum [] = 0 := rfl

theorem wholeSum_cons (n : Int64) (numbers : List Int64) :
    wholeSum (n :: numbers) = n.toInt + wholeSum numbers := by
  rw [wholeSum, List.map_cons, List.sum_cons, wholeSum]

/-- From the number on, each running total of the numbers is within the 96 bits of decimals. -/
def StaysWithin (m : Int) (numbers : List Int64) : Prop :=
  ∀ run, run <+: numbers → (m + wholeSum run).natAbs < limit96

instance (m : Int) (numbers : List Int64) : Decidable (StaysWithin m numbers) :=
  decidable_of_iff (∀ run ∈ numbers.inits, (m + wholeSum run).natAbs < limit96) (by
    simp only [List.mem_inits, StaysWithin])

theorem staysWithin_cons {m : Int} (n : Int64) (numbers : List Int64)
    (hm : m.natAbs < limit96) :
    StaysWithin m (n :: numbers) ↔ StaysWithin (m + n.toInt) numbers := by
  constructor
  · intro h run hrun
    have hlonger := h (n :: run) (List.cons_prefix_cons.mpr ⟨rfl, hrun⟩)
    rw [wholeSum_cons, ← add_assoc] at hlonger
    exact hlonger
  · intro h run hrun
    rcases List.prefix_cons_iff.mp hrun with rfl | ⟨rest, rfl, hrest⟩
    · rw [wholeSum_nil, add_zero]
      exact hm
    · rw [wholeSum_cons, ← add_assoc]
      exact h rest hrest

namespace Decimal

theorem exists_foldlM_add? {numbers : List Int64} {a : Decimal} {m : Int} (ha : a.IsWhole m)
    (h : StaysWithin m numbers) :
    ∃ c, (numbers.map ofInt64).foldlM add? a = some c ∧ c.IsWhole (m + wholeSum numbers) := by
  induction numbers generalizing a m with
  | nil =>
    refine ⟨a, rfl, ?_⟩
    rw [wholeSum_nil, add_zero]
    exact ha
  | cons n rest ih =>
    rw [staysWithin_cons n rest ha.natAbs_lt] at h
    have hhead := h [] List.nil_prefix
    rw [wholeSum_nil, add_zero] at hhead
    obtain ⟨b, hb, hwhole⟩ := exists_add? ha (.ofInt64 n) hhead
    obtain ⟨c, hc, hsum⟩ := ih hwhole h
    rw [add_assoc, ← wholeSum_cons] at hsum
    refine ⟨c, ?_, hsum⟩
    rw [List.map_cons, List.foldlM_cons, hb]
    exact hc

theorem foldlM_add?_eq_none {numbers : List Int64} {a : Decimal} {m : Int} (ha : a.IsWhole m)
    (h : ¬ StaysWithin m numbers) : (numbers.map ofInt64).foldlM add? a = none := by
  induction numbers generalizing a m with
  | nil =>
    refine absurd (fun run hrun => ?_) h
    rw [List.prefix_nil.mp hrun, wholeSum_nil, add_zero]
    exact ha.natAbs_lt
  | cons n rest ih =>
    rw [staysWithin_cons n rest ha.natAbs_lt] at h
    rw [List.map_cons, List.foldlM_cons]
    by_cases hhead : (m + n.toInt).natAbs < limit96
    · obtain ⟨b, hb, hwhole⟩ := exists_add? ha (.ofInt64 n) hhead
      rw [hb]
      exact ih hwhole h
    · rw [add?_eq_none ha (.ofInt64 n) (not_lt.mp hhead)]
      rfl

end Decimal

inductive IsSum : List Int64 → Value → Prop
  | nothing : IsSum [] .null
  | whole {numbers : List Int64} {n : Int64} : numbers ≠ [] → n.toInt = wholeSum numbers →
    IsSum numbers (.int n)
  | decimal {numbers : List Int64} {d : Decimal} : numbers ≠ [] → ¬ FitsInt64 (wholeSum numbers) →
    d.toRat = wholeSum numbers → IsSum numbers (.decimal d)

theorem IsSum.wholeSum_eq {numbers others : List Int64} {value : Value} (h : IsSum numbers value)
    (hothers : IsSum others value) : wholeSum numbers = wholeSum others := by
  cases h with
  | nothing =>
    cases hothers
    rfl
  | whole _ hn =>
    cases hothers with
    | whole _ hother => exact hn.symm.trans hother
  | decimal _ _ hd =>
    cases hothers with
    | decimal _ _ hother => exact_mod_cast hd.symm.trans hother

namespace AggregateColumn

variable {column : AggregateColumn} {group : List Record} {numbers : List Int64}

theorem isSum_sumValue {sum : Decimal} (hne : numbers ≠ [])
    (hsum : sum.IsWhole (wholeSum numbers)) : IsSum numbers (sumValue .int sum) := by
  unfold sumValue
  cases hwhole : sum.toInt64? with
  | some n =>
    have hn := (sum.toInt64?_eq_some_iff n).mp hwhole
    rw [hsum.toRat] at hn
    exact .whole hne (by exact_mod_cast hn.symm)
  | none =>
    refine .decimal hne (fun hfits => ?_) hsum.toRat
    have hn : sum.toInt64? = some (Int64.ofInt (wholeSum numbers)) := by
      rw [sum.toInt64?_eq_some_iff, hsum.toRat, Int64.toInt_ofInt_of_le hfits.1 hfits.2]
    rw [hn] at hwhole
    contradiction

def counted (numbers : List Int64) : List Int64 :=
  numbers.filter fun n => n != Value.noNumber

theorem counted_eq (h : Value.noNumber ∉ numbers) : counted numbers = numbers := by
  rw [counted, List.filter_eq_self]
  intro n hn
  rw [bne_iff_ne]
  rintro rfl
  contradiction

theorem counted_cons_of_ne {n : Int64} (h : n ≠ Value.noNumber) (numbers : List Int64) :
    counted (n :: numbers) = n :: counted numbers :=
  List.filter_cons_of_pos (bne_iff_ne.mpr h)

theorem counted_cons_noNumber (numbers : List Int64) :
    counted (Value.noNumber :: numbers) = counted numbers :=
  List.filter_cons_of_neg (by simp)

theorem wholeSum_eq_counted (numbers : List Int64) :
    wholeSum numbers =
      wholeSum (counted numbers) + numbers.count Value.noNumber * Value.noNumber.toInt := by
  induction numbers with
  | nil => rfl
  | cons n rest ih =>
    rw [wholeSum_cons]
    by_cases h : n = Value.noNumber
    · rw [h, counted_cons_noNumber, List.count_cons_self, Nat.cast_add_one, add_mul, one_mul]
      omega
    · rw [counted_cons_of_ne h, wholeSum_cons, List.count_cons_of_ne h]
      omega

theorem wholeSum_lt_counted (h : Value.noNumber ∈ numbers) :
    wholeSum numbers < wholeSum (counted numbers) := by
  have hcount : 0 < (numbers.count Value.noNumber : Int) :=
    Nat.cast_pos.mpr (List.count_pos_iff.mpr h)
  have hleast : Value.noNumber.toInt < 0 := by decide
  have hnegative := mul_neg_of_pos_of_neg hcount hleast
  have hsum := wholeSum_eq_counted numbers
  omega

theorem filterMap_number? (numbers : List Int64) :
    (numbers.map Value.int).filterMap (number? .int) =
      (counted numbers).map Decimal.ofInt64 := by
  have hnumber (n : Int64) : number? .int (.int n) =
      if n = Value.noNumber then none else some (Decimal.ofInt64 n) := rfl
  induction numbers with
  | nil => rfl
  | cons n rest ih =>
    unfold counted at ih ⊢
    rw [List.map_cons, List.filterMap_cons, hnumber, ih]
    by_cases h : n = Value.noNumber <;> simp [h]

theorem numbers_eq (htype : column.accessor.type = .int)
    (hvalues : column.presentValues group = numbers.map .int) :
    column.numbers group = (counted numbers).map Decimal.ofInt64 := by
  rw [AggregateColumn.numbers, htype, hvalues, filterMap_number?]

section Sum

variable {distinct : Bool} (offset : UtcOffset) (hrole : column.role = .apply .sum distinct)
  (htype : column.accessor.type = .int) (hvalues : column.presentValues group = numbers.map .int)

include hrole htype hvalues

theorem value_sum_eq : column.value offset group =
    if (counted numbers).isEmpty then .ok .null
    else (total ((counted numbers).map Decimal.ofInt64)).map (sumValue .int) := by
  have hnumbers := numbers_eq htype hvalues
  rw [AggregateColumn.numbers] at hnumbers
  unfold AggregateColumn.value AggregateColumn.apply
  rw [hrole]
  dsimp only
  rw [hnumbers, List.isEmpty_map, htype]
  rfl

theorem exists_value_sum (h : StaysWithin 0 (counted numbers)) :
    ∃ sum, column.value offset group = .ok sum ∧ IsSum (counted numbers) sum := by
  rw [value_sum_eq offset hrole htype hvalues]
  by_cases hempty : counted numbers = []
  · rw [hempty]
    exact ⟨.null, rfl, .nothing⟩
  · obtain ⟨sum, hsum, hwhole⟩ := Decimal.exists_foldlM_add? .zero h
    rw [zero_add] at hwhole
    refine ⟨sumValue .int sum, ?_, isSum_sumValue hempty hwhole⟩
    rw [List.isEmpty_eq_false_iff.mpr hempty, total, hsum]
    rfl

theorem value_sum_overflow (h : ¬ StaysWithin 0 (counted numbers)) :
    column.value offset group = .error .overflow := by
  have hempty : counted numbers ≠ [] := by
    intro hempty
    rw [hempty] at h
    exact h (by decide)
  rw [value_sum_eq offset hrole htype hvalues, List.isEmpty_eq_false_iff.mpr hempty, total,
    Decimal.foldlM_add?_eq_none .zero h]
  rfl

/-- A column of whole numbers sums up its values but the least number of 64 bits, exactly as long as
the running totals are within the range of decimals, and overflows beyond it. So its sum is that of
all values if and only if none of them is that number. -/
theorem value_sum_iff :
    (StaysWithin 0 (counted numbers) →
        ∃ sum, column.value offset group = .ok sum ∧ IsSum (counted numbers) sum) ∧
      (¬ StaysWithin 0 (counted numbers) → column.value offset group = .error .overflow) ∧
      (StaysWithin 0 numbers →
        ((∃ sum, column.value offset group = .ok sum ∧ IsSum numbers sum) ↔
          Value.noNumber ∉ numbers)) := by
  have hexists := exists_value_sum offset hrole htype hvalues
  have hoverflow := value_sum_overflow offset hrole htype hvalues
  refine ⟨hexists, hoverflow, fun hwithin => ⟨?_, fun hmem => ?_⟩⟩
  · rintro ⟨sum, hsum, hall⟩ hmem
    by_cases h : StaysWithin 0 (counted numbers)
    · obtain ⟨other, hother, hcounted⟩ := hexists h
      obtain rfl := Except.ok.inj (hsum.symm.trans hother)
      exact (wholeSum_lt_counted hmem).ne (hall.wholeSum_eq hcounted)
    · rw [hoverflow h] at hsum
      contradiction
  · have heq := counted_eq hmem
    rw [heq] at hexists
    exact hexists hwithin

end Sum

def employeesInTotal : AggregateColumn :=
  ⟨"total", "account", "employees", ⟨"employees", .int, none⟩, .apply .sum false⟩

def employers (numbers : List Int64) : List Record :=
  numbers.map fun n => ⟨"account", .ofNat 1, .ofList [("employees", .int n)]⟩

theorem value_sum_iff_beyond :
    StaysWithin 0 [Int64.maxValue, 1] ∧ Value.noNumber ∉ [Int64.maxValue, 1] ∧
      ∃ sum, employeesInTotal.value .zero (employers [Int64.maxValue, 1]) = .ok sum ∧
        IsSum [Int64.maxValue, 1] sum := by
  have hwithin : StaysWithin 0 [Int64.maxValue, 1] := by decide
  have hnone : Value.noNumber ∉ [Int64.maxValue, 1] := by decide
  have hvalues : employeesInTotal.presentValues (employers [Int64.maxValue, 1]) =
      [Int64.maxValue, 1].map .int := rfl
  have hrole : employeesInTotal.role = .apply .sum false := rfl
  obtain ⟨-, -, hiff⟩ := value_sum_iff .zero hrole rfl hvalues
  exact ⟨hwithin, hnone, (hiff hwithin).mpr hnone⟩

theorem exists_value_not_isSum :
    ¬ ∀ (column : AggregateColumn) (offset : UtcOffset) (group : List Record)
      (numbers : List Int64) (distinct : Bool), column.role = .apply .sum distinct →
      column.accessor.type = .int → column.presentValues group = numbers.map .int →
      StaysWithin 0 numbers → ∃ sum, column.value offset group = .ok sum ∧ IsSum numbers sum := by
  intro h
  obtain ⟨sum, hsum, hall⟩ := h employeesInTotal .zero (employers [Value.noNumber])
    [Value.noNumber] false rfl rfl rfl (by decide)
  have hnull : employeesInTotal.value .zero (employers [Value.noNumber]) = .ok .null := rfl
  obtain rfl := Except.ok.inj (hsum.symm.trans hnull)
  cases hall

end AggregateColumn

end RecordQuery
