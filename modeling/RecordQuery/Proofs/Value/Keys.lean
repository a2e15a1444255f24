import RecordQuery.Proofs.Value.Rationals
import RecordQuery.Relation.Aggregate

namespace RecordQuery

theorem Decimal.same_iff (a b : Decimal) : a.same b = true ↔ a.toRat = b.toRat := by
  have ha : (powerOfTen a.scale : ℚ) ≠ 0 := Nat.cast_ne_zero.mpr (powerOfTen_pos a.scale).ne'
  have hb : (powerOfTen b.scale : ℚ) ≠ 0 := Nat.cast_ne_zero.mpr (powerOfTen_pos b.scale).ne'
  rw [same, beq_iff_eq, toRat, toRat, div_eq_div_iff ha hb]
  exact_mod_cast Iff.rfl

namespace Scalar

def meaning : Scalar → Scalar ⊕ ℚ
  | .decimal d => .inr d.toRat
  | scalar => .inl scalar

theorem sameKey_iff (a b : Scalar) : a.sameKey b = true ↔ a.meaning = b.meaning := by
  cases a with
  | decimal d =>
    cases b with
    | decimal e => rw [sameKey, Decimal.same_iff, meaning, meaning, Sum.inr.injEq]
    | _ => simp [sameKey, meaning]
  | _ => cases b <;> simp [sameKey, meaning]

end Scalar

namespace Relation

def keyMeaning (key : List (Option Scalar)) : List (Option (Scalar ⊕ ℚ)) :=
  key.map (Option.map Scalar.meaning)

theorem sameGroup_iff (key other : List (Option Scalar)) :
    sameGroup key other = true ↔ keyMeaning key = keyMeaning other := by
  induction key generalizing other with
  | nil => cases other <;> simp [sameGroup, keyMeaning]
  | cons first rest ih =>
    cases other with
    | nil => cases first <;> simp [sameGroup, keyMeaning]
    | cons second others =>
      have hrest := ih others
      unfold keyMeaning at hrest ⊢
      cases first <;> cases second <;> simp [sameGroup, Scalar.sameKey_iff, hrest]

end Relation

end RecordQuery
