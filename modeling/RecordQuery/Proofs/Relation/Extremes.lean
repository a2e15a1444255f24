import RecordQuery.Proofs.Value.Comparison
import RecordQuery.Relation.Aggregate

namespace RecordQuery

inductive AggregateFunction.Seeks : AggregateFunction → Ordering → Prop
  | least : Seeks .min .lt
  | greatest : Seeks .max .gt

theorem AggregateFunction.Seeks.lt_or_gt {function : AggregateFunction} {wanted : Ordering}
    (h : function.Seeks wanted) : wanted = .lt ∨ wanted = .gt := by
  cases h with
  | least => exact .inl rfl
  | greatest => exact .inr rfl

namespace Scalar

variable {x y z : Scalar} {wanted : Ordering}

theorem order?_of_beats (hwanted : wanted = .lt ∨ wanted = .gt) (hyx : y.order? x = some wanted)
    (hfamily : z.family = x.family) (hzx : z.order? x ≠ some wanted) :
    y.order? z = some wanted := by
  obtain ⟨o, horder⟩ := Option.isSome_iff_exists.mp ((isSome_order?_iff z x).mpr hfamily)
  have hne : o ≠ wanted := by
    rintro rfl
    contradiction
  have hz := compares_of_order? horder
  have hy := compares_of_order? hyx
  rcases hwanted with rfl | rfl
  · refine (hy.lt_of_lt_of_le hz.swap ?_).order?_eq
    cases o <;> simp_all
  · exact (hz.lt_of_le_of_lt hne hy.swap).swap.order?_eq

theorem order?_self_ne (hwanted : wanted = .lt ∨ wanted = .gt) (x : Scalar) :
    x.order? x ≠ some wanted := by
  rw [order?_self]
  rcases hwanted with rfl | rfl <;> simp

theorem order?_ne_of_beaten (hwanted : wanted = .lt ∨ wanted = .gt)
    (h : x.order? y = some wanted) : y.order? x ≠ some wanted := by
  rw [order?_swap x y, h]
  rcases hwanted with rfl | rfl <;> simp

end Scalar

namespace AggregateColumn

variable {type : AttributeType} {wanted : Ordering} {seen values : List Value} {best value : Value}
  {x y : Scalar}

/-- The value, with its scalar, is the first among the best of the values that can be compared with
the first scalar of all. -/
structure IsExtreme (type : AttributeType) (wanted : Ordering) (values : List Value) (best : Value)
    (x : Scalar) : Prop where
  scalar : best.scalar? type none = some x
  comparable : ∃ first, values.findSome? (·.scalar? type none) = some first ∧
    (x.order? first).isSome
  earliest : ∃ before after, values = before ++ best :: after ∧
    ∀ value ∈ before, ∀ y, value.scalar? type none = some y → (y.order? x).isSome →
      x.order? y = some wanted
  unbeaten : ∀ value ∈ values, ∀ y, value.scalar? type none = some y → y.order? x ≠ some wanted

namespace IsExtreme

theorem of_first (hwanted : wanted = .lt ∨ wanted = .gt)
    (hseen : ∀ value ∈ seen, value.scalar? type none = none)
    (hscalar : value.scalar? type none = some x) :
    IsExtreme type wanted (seen ++ [value]) value x where
  scalar := hscalar
  comparable := by
    refine ⟨x, ?_, (Scalar.isSome_order?_iff x x).mpr rfl⟩
    rw [List.findSome?_append, List.findSome?_eq_none_iff.mpr hseen, Option.none_or]
    simp [hscalar]
  earliest := by
    refine ⟨seen, [], rfl, fun other hother y hy => ?_⟩
    rw [hseen other hother] at hy
    contradiction
  unbeaten := by
    intro other hother y hy
    rcases List.mem_append.mp hother with hother | hother
    · rw [hseen other hother] at hy
      contradiction
    · obtain rfl := List.mem_singleton.mp hother
      obtain rfl := Option.some.inj (hscalar.symm.trans hy)
      exact Scalar.order?_self_ne hwanted x

theorem findSome?_append (h : IsExtreme type wanted seen best x) (others : List Value) :
    (seen ++ others).findSome? (·.scalar? type none) = seen.findSome? (·.scalar? type none) := by
  obtain ⟨first, hfirst, -⟩ := h.comparable
  rw [List.findSome?_append, hfirst, Option.some_or]

theorem keep (h : IsExtreme type wanted seen best x)
    (hvalue : ∀ y, value.scalar? type none = some y → y.order? x ≠ some wanted) :
    IsExtreme type wanted (seen ++ [value]) best x where
  scalar := h.scalar
  comparable := by
    rw [h.findSome?_append]
    exact h.comparable
  earliest := by
    obtain ⟨before, after, hsplit, hbefore⟩ := h.earliest
    refine ⟨before, after ++ [value], ?_, hbefore⟩
    rw [hsplit, List.append_assoc, List.cons_append]
  unbeaten := by
    intro other hother
    rcases List.mem_append.mp hother with hother | hother
    · exact h.unbeaten other hother
    · rw [List.mem_singleton.mp hother]
      exact hvalue

theorem replace (hwanted : wanted = .lt ∨ wanted = .gt) (h : IsExtreme type wanted seen best x)
    (hvalue : value.scalar? type none = some y) (hbeats : y.order? x = some wanted) :
    IsExtreme type wanted (seen ++ [value]) value y := by
  have hfamily := Scalar.family_eq_of_order? hbeats
  have hall : ∀ other ∈ seen, ∀ z, other.scalar? type none = some z → z.family = y.family →
      y.order? z = some wanted := by
    intro other hother z hz hzy
    exact Scalar.order?_of_beats hwanted hbeats (hzy.trans hfamily) (h.unbeaten other hother z hz)
  refine ⟨hvalue, ?_, ⟨seen, [], rfl, fun other hother z hz hzy => ?_⟩, ?_⟩
  · rw [h.findSome?_append]
    obtain ⟨first, hfirst, hsome⟩ := h.comparable
    rw [Scalar.isSome_order?_iff, ← hfamily, ← Scalar.isSome_order?_iff] at hsome
    exact ⟨first, hfirst, hsome⟩
  · exact hall other hother z hz ((Scalar.isSome_order?_iff z y).mp hzy)
  · intro other hother z hz hzy
    rcases List.mem_append.mp hother with hother | hother
    · have hyz := hall other hother z hz (Scalar.family_eq_of_order? hzy)
      exact Scalar.order?_ne_of_beaten hwanted hyz hzy
    · obtain rfl := List.mem_singleton.mp hother
      obtain rfl := Option.some.inj (hvalue.symm.trans hz)
      exact Scalar.order?_self_ne hwanted y hzy

end IsExtreme

def Found (type : AttributeType) (wanted : Ordering) (seen : List Value) :
    Option (Scalar × Value) → Prop
  | none => ∀ value ∈ seen, value.scalar? type none = none
  | some (x, best) => IsExtreme type wanted seen best x

theorem Found.better {best? : Option (Scalar × Value)} (hwanted : wanted = .lt ∨ wanted = .gt)
    (h : Found type wanted seen best?) (value : Value) :
    Found type wanted (seen ++ [value]) (better type wanted best? value) := by
  unfold AggregateColumn.better
  cases hvalue : value.scalar? type none with
  | none =>
    cases best? with
    | none =>
      intro other hother
      rcases List.mem_append.mp hother with hother | hother
      · exact h other hother
      · rw [List.mem_singleton.mp hother, hvalue]
    | some best => exact h.keep fun y hy => by rw [hvalue] at hy; contradiction
  | some y =>
    cases best? with
    | none => exact .of_first hwanted h hvalue
    | some best =>
      dsimp only
      split
      · rename_i hbeats
        exact h.replace hwanted hvalue hbeats
      · rename_i hnot
        refine h.keep fun z hz => ?_
        rw [← Option.some.inj (hvalue.symm.trans hz)]
        exact hnot

theorem Found.foldl {best? : Option (Scalar × Value)} (hwanted : wanted = .lt ∨ wanted = .gt)
    (h : Found type wanted seen best?) (rest : List Value) :
    Found type wanted (seen ++ rest) (rest.foldl (AggregateColumn.better type wanted) best?) := by
  induction rest generalizing seen best? with
  | nil =>
    rw [List.append_nil]
    exact h
  | cons value rest ih =>
    have hrest := ih (h.better hwanted value)
    rw [List.append_assoc, List.singleton_append] at hrest
    exact hrest

theorem found_foldl (type : AttributeType) (hwanted : wanted = .lt ∨ wanted = .gt)
    (values : List Value) :
    Found type wanted values (values.foldl (AggregateColumn.better type wanted) none) := by
  have hnothing : Found type wanted [] none := fun value hvalue => by contradiction
  exact hnothing.foldl hwanted values

theorem extreme_null_or (type : AttributeType) (hwanted : wanted = .lt ∨ wanted = .gt)
    (values : List Value) :
    (extreme type wanted values = .null ∧ ∀ value ∈ values, value.scalar? type none = none) ∨
      ∃ x, IsExtreme type wanted values (extreme type wanted values) x := by
  have hfound := found_foldl type hwanted values
  unfold extreme
  cases hbest : values.foldl (AggregateColumn.better type wanted) none with
  | none =>
    rw [hbest] at hfound
    exact .inl ⟨rfl, hfound⟩
  | some best =>
    rw [hbest] at hfound
    exact .inr ⟨best.1, hfound⟩

theorem IsExtreme.ne_null (h : IsExtreme type wanted values best x) : best ≠ .null := by
  rintro rfl
  cases h.scalar

theorem IsExtreme.mem (h : IsExtreme type wanted values best x) : best ∈ values := by
  obtain ⟨before, after, hsplit, -⟩ := h.earliest
  rw [hsplit]
  exact List.mem_append_right before List.mem_cons_self

/-- The least (greatest) value of a column is null if no value of the rows has a scalar, and
otherwise the first among the least (greatest) of those that can be compared with the first scalar.
No value of the rows beats it, whatever the column mixes. -/
theorem value_extreme {column : AggregateColumn} {function : AggregateFunction} {distinct : Bool}
    (offset : UtcOffset) (group : List Record) (hrole : column.role = .apply function distinct)
    (hseeks : function.Seeks wanted) :
    ∃ result, column.value offset group = .ok result ∧
      (result = .null ↔ ∀ value ∈ column.presentValues group,
        value.scalar? column.accessor.type none = none) ∧
      (result ≠ .null → ∃ x,
        IsExtreme column.accessor.type wanted (column.presentValues group) result x) := by
  have hvalue : column.value offset group =
      .ok (extreme column.accessor.type wanted (column.presentValues group)) := by
    unfold AggregateColumn.value
    rw [hrole]
    cases hseeks <;> rfl
  refine ⟨_, hvalue, ?_⟩
  rcases extreme_null_or column.accessor.type hseeks.lt_or_gt (column.presentValues group) with
    ⟨hnull, hnone⟩ | ⟨x, hextreme⟩
  · exact ⟨iff_of_true hnull hnone, fun hne => absurd hnull hne⟩
  · refine ⟨iff_of_false hextreme.ne_null fun hnone => ?_, fun _ => ⟨x, hextreme⟩⟩
    have hscalar := hextreme.scalar
    rw [hnone _ hextreme.mem] at hscalar
    contradiction

def leastCode : AggregateColumn :=
  ⟨"least", "account", "code", ⟨"code", .text, none⟩, .apply .min false⟩

def mixedCodes : List Value := [.int 2, .text "", .decimal (.ofInt64 1), .bool false, .int 1]

def codedAccounts : List Record :=
  mixedCodes.map fun code => ⟨"account", .ofNat 1, .ofList [("code", code)]⟩

theorem value_extreme_codes :
    leastCode.value .zero codedAccounts = .ok (.decimal (.ofInt64 1)) ∧
      ∃ x, IsExtreme .text .lt mixedCodes (.decimal (.ofInt64 1)) x := by
  obtain ⟨result, hvalue, -, hextreme⟩ := value_extreme .zero codedAccounts
    (show leastCode.role = .apply .min false from rfl) .least
  have hleast : leastCode.value .zero codedAccounts = .ok (.decimal (.ofInt64 1)) := rfl
  obtain rfl := Except.ok.inj (hvalue.symm.trans hleast)
  exact ⟨hleast, hextreme Value.noConfusion⟩

end AggregateColumn

end RecordQuery
