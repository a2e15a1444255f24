import Mathlib.Data.String.Basic
import RecordQuery.Proofs.Value.Rationals
import RecordQuery.Relation.Sort

namespace RecordQuery

instance : Std.TransOrd Instant :=
  inferInstanceAs (Std.TransCmp (compareLex (compareOn fun t : Instant => t.date.number)
    (compareLex (compareOn Instant.second) (compareOn Instant.nano))))

instance : Std.TransOrd Uuid := inferInstanceAs (Std.TransCmp (compareOn Uuid.toNat))

namespace Scalar

inductive Compares : Scalar → Scalar → Ordering → Prop
  | text (a b : String) : Compares (.text a) (.text b) (compare a b)
  | number {x y : Scalar} {a b : ℚ} : x.number? = some a → y.number? = some b →
    Compares x y (compare a b)
  | bool (a b : Bool) : Compares (.bool a) (.bool b) (compare a b)
  | dateTime (s t : Instant) : Compares (.dateTime s) (.dateTime t) (compare s t)
  | uuid (a b : Uuid) : Compares (.uuid a) (.uuid b) (compare a b)
  | options (codes : OptionSet) : Compares (.options codes) (.options codes) .eq

variable {x y z : Scalar} {o : Ordering}

theorem Compares.order?_eq (h : Compares x y o) : x.order? y = some o := by
  cases h with
  | number hx hy => exact order?_number hx hy
  | options => simp [order?]
  | _ => rfl

theorem compares_of_order? (h : x.order? y = some o) : Compares x y o := by
  have hnumber : ∀ {a b : ℚ}, x.number? = some a → y.number? = some b → Compares x y o := by
    intro a b hx hy
    rw [order?_number hx hy, Option.some.injEq] at h
    exact h ▸ .number hx hy
  cases x with
  | int m =>
    cases y with
    | int | decimal => exact hnumber rfl rfl
    | _ => cases h
  | decimal c =>
    cases y with
    | int | decimal => exact hnumber rfl rfl
    | _ => cases h
  | options codes =>
    cases y with
    | options others =>
      simp only [order?] at h
      split at h
      · subst_vars
        cases h
        exact .options _
      · cases h
    | _ => cases h
  | text a =>
    cases y <;> cases h
    exact .text a _
  | bool a =>
    cases y <;> cases h
    exact .bool a _
  | dateTime s =>
    cases y <;> cases h
    exact .dateTime s _
  | uuid a =>
    cases y <;> cases h
    exact .uuid a _

theorem Compares.swap (h : Compares x y o) : Compares y x o.swap := by
  cases h with
  | number hx hy =>
    rw [← Std.OrientedCmp.eq_swap]
    exact .number hy hx
  | options => exact .options _
  | _ =>
    rw [← Std.OrientedCmp.eq_swap]
    constructor

theorem order?_swap (x y : Scalar) : y.order? x = (x.order? y).map Ordering.swap := by
  cases h : x.order? y with
  | none =>
    cases h' : y.order? x with
    | none => rfl
    | some o => rw [(compares_of_order? h').swap.order?_eq] at h; cases h
  | some o => exact (compares_of_order? h).swap.order?_eq

def Comparable (x y : Scalar) : Prop := ∃ o, Compares x y o

theorem Comparable.symm (h : Comparable x y) : Comparable y x :=
  h.elim fun _ ho => ⟨_, ho.swap⟩

theorem Compares.trans {o' : Ordering} (h : Compares x y o) (h' : Compares y z o') (ho : o ≠ .gt)
    (ho' : o' ≠ .gt) : ∃ o'', Compares x z o'' ∧ o'' ≠ .gt := by
  cases h with
  | number hx hy =>
    cases h' with
    | number hy' hz =>
      cases hy.symm.trans hy'
      exact ⟨_, .number hx hz, Std.TransCmp.le_trans ho ho'⟩
    | _ => cases hy
  | options =>
    cases h' with
    | number hx' => cases hx'
    | options => exact ⟨_, .options _, ho⟩
  | text a b =>
    cases h' with
    | number hx' => cases hx'
    | text _ c => exact ⟨_, .text a c, Std.TransCmp.le_trans ho ho'⟩
  | bool a b =>
    cases h' with
    | number hx' => cases hx'
    | bool _ c => exact ⟨_, .bool a c, Std.TransCmp.le_trans ho ho'⟩
  | dateTime a b =>
    cases h' with
    | number hx' => cases hx'
    | dateTime _ c => exact ⟨_, .dateTime a c, Std.TransCmp.le_trans ho ho'⟩
  | uuid a b =>
    cases h' with
    | number hx' => cases hx'
    | uuid _ c => exact ⟨_, .uuid a c, Std.TransCmp.le_trans ho ho'⟩

theorem Compares.eq_unique {o' : Ordering} (h : Compares x y o) (h' : Compares x y o') : o = o' :=
  Option.some.inj (h.order?_eq.symm.trans h'.order?_eq)

theorem Compares.lt_of_lt_of_le (h : Compares x y .lt) (h' : Compares y z o) (ho : o ≠ .gt) :
    Compares x z .lt := by
  obtain ⟨o', hxz, ho'⟩ := h.trans h' (by decide) ho
  cases o' with
  | lt => exact hxz
  | gt => contradiction
  | eq =>
    -- with `x` and `z` tied the second pair would lead back from `y` to `x`
    obtain ⟨_, hyx, hne⟩ := h'.trans hxz.swap ho (by decide)
    exact absurd (hyx.eq_unique h.swap) hne

theorem Compares.lt_of_le_of_lt (h : Compares x y o) (ho : o ≠ .gt) (h' : Compares y z .lt) :
    Compares x z .lt := by
  obtain ⟨o', hxz, ho'⟩ := h.trans h' ho (by decide)
  cases o' with
  | lt => exact hxz
  | gt => contradiction
  | eq =>
    obtain ⟨_, hzy, hne⟩ := hxz.swap.trans h (by decide) ho
    exact absurd (hzy.eq_unique h'.swap) hne

theorem Compares.then_of_ne_gt {o' : Ordering} (h : Compares x y o) (h' : Compares y z o')
    (ho : o ≠ .gt) (ho' : o' ≠ .gt) : Compares x z (o.then o') := by
  cases o with
  | gt => contradiction
  | lt => exact h.lt_of_lt_of_le h' ho'
  | eq =>
    cases o' with
    | gt => contradiction
    | lt => exact h.lt_of_le_of_lt ho h'
    | eq =>
      obtain ⟨o, hxz, hle⟩ := h.trans h' ho ho'
      obtain ⟨o', hzx, hge⟩ := h'.swap.trans h.swap (by decide) (by decide)
      obtain rfl := hzx.eq_unique hxz.swap
      cases o with
      | eq => exact hxz
      | lt | gt => contradiction

theorem Compares.then_of_ne_lt {o' : Ordering} (h : Compares x y o) (h' : Compares y z o')
    (ho : o ≠ .lt) (ho' : o' ≠ .lt) : Compares x z (o.then o') := by
  have hback : Compares z x (o'.swap.then o.swap) := by
    apply h'.swap.then_of_ne_gt h.swap
    · cases o' <;> simp_all
    · cases o <;> simp_all
  have hthen : (o'.swap.then o.swap).swap = o.then o' := by
    cases o <;> cases o' <;> trivial
  exact hthen ▸ hback.swap

inductive Family where
  | text
  | number
  | bool
  | dateTime
  | uuid
  | options (codes : OptionSet)

def family : Scalar → Family
  | .text _ => .text
  | .int _ => .number
  | .decimal _ => .number
  | .bool _ => .bool
  | .dateTime _ => .dateTime
  | .uuid _ => .uuid
  | .options codes => .options codes

theorem isSome_order?_iff (x y : Scalar) : (x.order? y).isSome ↔ x.family = y.family := by
  cases x with
  | options codes =>
    cases y with
    | options others =>
      by_cases h : codes = others <;> simp [order?, family, h]
    | _ => simp [order?, family]
  | _ => cases y <;> simp [order?, family]

theorem family_eq_of_order? {o : Ordering} (h : x.order? y = some o) : x.family = y.family :=
  (isSome_order?_iff x y).mp (by rw [h, Option.isSome_some])

theorem order?_self (x : Scalar) : x.order? x = some .eq := by
  obtain ⟨o, ho⟩ := Option.isSome_iff_exists.mp ((isSome_order?_iff x x).mpr rfl)
  have hswap := order?_swap x x
  rw [ho, Option.map_some, Option.some.injEq] at hswap
  cases o with
  | eq => exact ho
  | lt | gt => contradiction

theorem order?_trans {o o' : Ordering} (h : x.order? y = some o) (h' : y.order? z = some o') :
    ∃ o'', x.order? z = some o'' ∧ (o ≠ .gt → o' ≠ .gt → o'' = o.then o') ∧
      (o ≠ .lt → o' ≠ .lt → o'' = o.then o') := by
  have hfamily := (family_eq_of_order? h).trans (family_eq_of_order? h')
  obtain ⟨o'', hxz⟩ := Option.isSome_iff_exists.mp ((isSome_order?_iff x z).mpr hfamily)
  have hcompare := compares_of_order? hxz
  have hfirst := compares_of_order? h
  have hsecond := compares_of_order? h'
  exact ⟨o'', hxz, fun ho ho' => hcompare.eq_unique (hfirst.then_of_ne_gt hsecond ho ho'),
    fun ho ho' => hcompare.eq_unique (hfirst.then_of_ne_lt hsecond ho ho')⟩

end Scalar

namespace SortKey

instance : Std.TransCmp referenceOrder :=
  inferInstanceAs (Std.TransCmp
    (compareLex (compareOn fun target : Reference => Text.lowercase (target.name?.getD ""))
      (compareOn Reference.id)))

end SortKey

namespace Value

open SortKey

inductive Compares (type : AttributeType) : Value → Value → Ordering → Prop
  | names {a b : Reference} :
    Text.lowercase (a.name?.getD "") ≠ Text.lowercase (b.name?.getD "") →
    Compares type (.reference a) (.reference b)
      (compare (Text.lowercase (a.name?.getD "")) (Text.lowercase (b.name?.getD "")))
  | ids {a b : Reference} :
    Text.lowercase (a.name?.getD "") = Text.lowercase (b.name?.getD "") →
    Compares type (.reference a) (.reference b) (compare a.id b.id)
  | scalars {x y : Value} {a b : Scalar} {o : Ordering} :
    x.reference? = none ∨ y.reference? = none → x.scalar? type none = some a →
    y.scalar? type none = some b → a.Compares b o → Compares type x y o

def Comparable (type : AttributeType) (x y : Value) : Prop :=
  ∃ a b, x.scalar? type none = some a ∧ y.scalar? type none = some b ∧ a.Comparable b

variable {type : AttributeType} {x y z : Value}

theorem Comparable.symm (h : Comparable type x y) : Comparable type y x := by
  obtain ⟨a, b, hx, hy, hab⟩ := h
  exact ⟨b, a, hy, hx, hab.symm⟩

theorem reference?_eq_some {target : Reference} (h : x.reference? = some target) :
    x = .reference target := by
  cases x <;> cases h
  rfl

theorem scalar?_reference (target : Reference) (type : AttributeType) :
    (Value.reference target).scalar? type none = some (.uuid target.id) :=
  rfl

theorem valueOrder_of_scalars (h : x.reference? = none ∨ y.reference? = none) :
    valueOrder type x y =
      match x.scalar? type none, y.scalar? type none with
      | some a, some b => (a.order? b).getD .eq
      | _, _ => .eq := by
  unfold valueOrder
  split
  · rcases h with h | h <;> cases h
  · rfl

theorem references_or (x y : Value) :
    (∃ a b, x = .reference a ∧ y = .reference b) ∨ x.reference? = none ∨ y.reference? = none := by
  cases hx : x.reference? with
  | none => exact Or.inr (Or.inl rfl)
  | some a =>
    cases hy : y.reference? with
    | none => exact Or.inr (Or.inr rfl)
    | some b => exact Or.inl ⟨a, b, reference?_eq_some hx, reference?_eq_some hy⟩

theorem Comparable.compares (h : Comparable type x y) :
    Compares type x y (valueOrder type x y) := by
  rcases references_or x y with ⟨a, b, rfl, rfl⟩ | href
  · rw [valueOrder, referenceOrder]
    by_cases hnames : Text.lowercase (a.name?.getD "") = Text.lowercase (b.name?.getD "")
    · rw [hnames, Std.ReflOrd.compare_self, Ordering.eq_then]
      exact .ids hnames
    · have hcompare : Compares type (.reference a) (.reference b) _ := .names hnames
      cases horder : compare (Text.lowercase (a.name?.getD "")) (Text.lowercase (b.name?.getD ""))
      with
      | eq => exact absurd (Std.LawfulEqOrd.eq_of_compare horder) hnames
      | lt | gt =>
        rw [horder] at hcompare
        exact hcompare
  · obtain ⟨a, b, hx, hy, o, hab⟩ := h
    rw [valueOrder_of_scalars href, hx, hy]
    refine .scalars href hx hy ?_
    simp only [hab.order?_eq, Option.getD_some]
    exact hab

theorem valueOrder_swap (type : AttributeType) (x y : Value) :
    valueOrder type y x = (valueOrder type x y).swap := by
  rcases references_or x y with ⟨a, b, rfl, rfl⟩ | href
  · change referenceOrder b a = (referenceOrder a b).swap
    exact Std.OrientedCmp.eq_swap
  · rw [valueOrder_of_scalars href, valueOrder_of_scalars href.symm]
    cases x.scalar? type none with
    | none => cases y.scalar? type none <;> rfl
    | some a =>
      cases y.scalar? type none with
      | none => rfl
      | some b =>
        simp only [Scalar.order?_swap a b]
        cases a.order? b <;> rfl

end Value

end RecordQuery
