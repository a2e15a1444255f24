import RecordQuery.Proofs.Predicate.Numbers
import RecordQuery.Proofs.Value.Comparison

namespace RecordQuery

def Comparison.mirrored : Comparison → Comparison
  | .equal => .equal
  | .notEqual => .notEqual
  | .greater => .less
  | .greaterEqual => .lessEqual
  | .less => .greater
  | .lessEqual => .greaterEqual

theorem Comparison.holds_mirrored (comparison : Comparison) (o : Ordering) :
    comparison.mirrored.holds o.swap = comparison.holds o := by
  cases comparison <;> cases o <;> rfl

namespace Predicate

variable (left right : Accessor) (comparison : Comparison) (record : Record)

theorem columnOrder?_swap :
    columnOrder? right left record = (columnOrder? left right record).map Ordering.swap := by
  unfold columnOrder?
  cases left.read? record with
  | none => cases right.read? record <;> rfl
  | some a =>
    cases right.read? record with
    | none => rfl
    | some b =>
      simp only [bind, Option.bind_some]
      cases a.scalar? left.type none with
      | none => cases b.scalar? right.type none <;> rfl
      | some x =>
        cases b.scalar? right.type none with
        | none => rfl
        | some y => exact Scalar.order?_swap x y

theorem eval_columns_mirrored :
    (columns left right comparison).eval record =
      (columns right left comparison.mirrored).eval record := by
  have hfaults : (columns right left comparison.mirrored).faults record =
      (columns left right comparison).faults record := rfl
  have hadmits : (columns right left comparison.mirrored).admits record =
      (columns left right comparison).admits record := by
    rw [admits, admits, columnOrder?_swap left right record]
    cases columnOrder? left right record with
    | none => rfl
    | some o => exact comparison.holds_mirrored o
  rw [eval, eval, hfaults, hadmits]

end Predicate

namespace Condition

def Names (condition : Condition) (aliases : AliasMap) (scope : Scope)
    (first second : Scope × String) : Prop :=
  scope.aliased aliases condition.alias? = .ok first.1 ∧ condition.column = first.2 ∧
    ∃ other, condition.other? = some other ∧ otherColumn aliases first.1 other = .ok second

structure Mirrors (aliases : AliasMap) (scope : Scope) (condition mirror : Condition) : Prop where
  outer : mirror.outer = condition.outer
  operator : ∃ comparison, condition.operator = .compare comparison ∧
    mirror.operator = .compare comparison.mirrored
  columns : ∃ first second, condition.Names aliases scope first second ∧
    mirror.Names aliases scope second first

variable {condition mirror : Condition} {aliases : AliasMap} {scope : Scope}

theorem compile_names {first second : Scope × String} {comparison : Comparison}
    (houter : condition.outer = false) (hoperator : condition.operator = .compare comparison)
    (hnames : condition.Names aliases scope first second) (context : Context) :
    condition.compile context aliases scope = (do
      let left ← first.1.accessor context.catalog first.2
      let right ← second.1.accessor context.catalog second.2
      return .columns left right comparison) := by
  obtain ⟨htarget, hcolumn, other, hother, hsecond⟩ := hnames
  simp only [compile, houter, htarget, hcolumn, hother, ok_bind, compileColumns, hoperator, hsecond,
    Bool.false_eq_true, if_false]

theorem Mirrors.compile (h : Mirrors aliases scope condition mirror) (context : Context)
    {predicate : Predicate} (hok : condition.compile context aliases scope = .ok predicate) :
    ∃ swapped, mirror.compile context aliases scope = .ok swapped ∧
      ∀ record, predicate.eval record = swapped.eval record := by
  obtain ⟨comparison, hoperator, hmirror⟩ := h.operator
  obtain ⟨first, second, hnames, hback⟩ := h.columns
  cases houter : condition.outer with
  | true =>
    have houter' : mirror.outer = true := h.outer.trans houter
    simp only [Condition.compile, houter, houter'] at hok ⊢
    exact ⟨predicate, hok, fun _ => rfl⟩
  | false =>
    rw [compile_names houter hoperator hnames] at hok
    obtain ⟨left, hleft, hok⟩ := bind_eq_ok_iff.mp hok
    obtain ⟨right, hright, hok⟩ := bind_eq_ok_iff.mp hok
    obtain rfl := Except.ok.inj hok
    refine ⟨.columns right left comparison.mirrored, ?_, ?_⟩
    · rw [compile_names (h.outer.trans houter) hmirror hback, hright, ok_bind, hleft]
      rfl
    · exact Predicate.eval_columns_mirrored left right comparison

end Condition

namespace Scalar

open Condition

/-- Scalars of one family are in a total order, numbers in that of the rationals, and scalars of two
families in none. A comparison of columns can therefore be written from either side. -/
theorem order?_total (x y z : Scalar) :
    x.order? x = some .eq ∧
      y.order? x = (x.order? y).map Ordering.swap ∧
      ((x.order? y).isSome ↔ x.family = y.family) ∧
      (∀ a b, x.number? = some a → y.number? = some b → x.order? y = some (compare a b)) ∧
      (∀ o o', x.order? y = some o → y.order? z = some o' →
        ∃ o'', x.order? z = some o'' ∧ (o ≠ .gt → o' ≠ .gt → o'' = o.then o') ∧
          (o ≠ .lt → o' ≠ .lt → o'' = o.then o')) ∧
      (∀ left right comparison record,
        (Predicate.columns left right comparison).eval record =
          (Predicate.columns right left comparison.mirrored).eval record) ∧
      ∀ context aliases scope condition mirror,
        Mirrors aliases scope condition mirror →
        ∀ predicate, condition.compile context aliases scope = .ok predicate →
          ∃ swapped, mirror.compile context aliases scope = .ok swapped ∧
            ∀ record, predicate.eval record = swapped.eval record := by
  refine ⟨order?_self x, order?_swap x y, isSome_order?_iff x y, fun _ _ => order?_number,
    fun _ _ => order?_trans, Predicate.eval_columns_mirrored, ?_⟩
  intro context aliases scope condition mirror hmirrors predicate hok
  exact hmirrors.compile context hok

theorem order?_total_numbers :
    let richer : Condition := ⟨"revenue", none, .compare .greater, [], some "employees", false⟩
    let smaller : Condition := ⟨"employees", none, .compare .less, [], some "revenue", false⟩
    let company : Record :=
      ⟨"account", .ofNat 1, .ofList [("employees", .int 7), ("revenue", .money sevenFive)]⟩
    order? (.int 7) (.decimal sevenFive) = some .lt ∧
      order? (.decimal sevenFive) (.int 8) = some .lt ∧ order? (.int 7) (.int 8) = some .lt ∧
      Mirrors [] (.root "account") richer smaller ∧
      ∃ p q, richer.compile companies [] (.root "account") = .ok p ∧
        smaller.compile companies [] (.root "account") = .ok q ∧
        p.eval company = .ok true ∧ q.eval company = .ok true := by
  intro richer smaller company
  have hbelow : order? (.int 7) (.decimal sevenFive) = some .lt := by decide
  have habove : order? (.decimal sevenFive) (.int 8) = some .lt := by decide
  obtain ⟨-, -, -, -, htrans, -, hmirrors⟩ :=
    order?_total (.int 7) (.decimal sevenFive) (.int 8)
  obtain ⟨o, horder, hle, -⟩ := htrans _ _ hbelow habove
  obtain rfl := hle (by decide) (by decide)
  have hmirror : Mirrors [] (.root "account") richer smaller :=
    ⟨rfl, ⟨.greater, rfl, rfl⟩, (.root "account", "revenue"), (.root "account", "employees"),
      ⟨rfl, rfl, _, rfl, rfl⟩, rfl, rfl, _, rfl, rfl⟩
  have hricher : richer.compile companies [] (.root "account") =
    .ok (.columns ⟨"revenue", .money, none⟩ ⟨"employees", .int, none⟩ .greater) := rfl
  have heval : (Predicate.columns ⟨"revenue", .money, none⟩ ⟨"employees", .int, none⟩
    .greater).eval company = .ok true := by decide
  obtain ⟨q, hq, hsame⟩ := hmirrors companies [] _ richer smaller hmirror _ hricher
  exact ⟨hbelow, habove, horder, hmirror, _, q, hricher, hq, heval,
    (hsame company).symm.trans heval⟩

end Scalar

end RecordQuery
