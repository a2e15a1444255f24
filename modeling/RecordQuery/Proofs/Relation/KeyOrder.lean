import Mathlib.Data.List.Pairwise
import RecordQuery.Proofs.Value.Comparison

namespace RecordQuery

namespace Value

open SortKey

/-- The references `x` and `y` have this order by their names, and the identifier that `z` is
compared as stands between theirs in the other order. -/
def Crosses (type : AttributeType) (x y z : Value) : Prop :=
  ∃ a b id, x = .reference a ∧ y = .reference b ∧ z.reference? = none ∧
    z.scalar? type none = some (.uuid id) ∧ referenceOrder a b = .lt ∧
    b.id.toNat ≤ id.toNat ∧ id.toNat ≤ a.id.toNat

variable {type : AttributeType} {x y z : Value}

theorem valueOrder_self (type : AttributeType) (x : Value) : valueOrder type x x = .eq := by
  have h := valueOrder_swap type x x
  cases horder : valueOrder type x x with
  | eq => rfl
  | lt | gt =>
    rw [horder] at h
    cases h

theorem valueOrder_trans_of_scalars (hxy : x.reference? = none ∨ y.reference? = none)
    (hyz : y.reference? = none ∨ z.reference? = none)
    (hxz : x.reference? = none ∨ z.reference? = none) (h : Comparable type x y)
    (h' : Comparable type y z) (hle : valueOrder type x y ≠ .gt)
    (hle' : valueOrder type y z ≠ .gt) : valueOrder type x z ≠ .gt := by
  obtain ⟨a, b, hx, hy, o, hab⟩ := h
  obtain ⟨b', c, hy', hz, o', hbc⟩ := h'
  cases hy.symm.trans hy'
  rw [valueOrder_of_scalars hxy, hx, hy] at hle
  rw [valueOrder_of_scalars hyz, hy, hz] at hle'
  simp only [hab.order?_eq, hbc.order?_eq, Option.getD_some] at hle hle'
  obtain ⟨o'', hac, hle''⟩ := hab.trans hbc hle hle'
  rw [valueOrder_of_scalars hxz, hx, hz]
  simpa only [hac.order?_eq, Option.getD_some] using hle''

theorem exists_uuid_of_comparable {a : Reference} (h : Comparable type (.reference a) z) :
    ∃ id, z.scalar? type none = some (.uuid id) := by
  obtain ⟨_, _, ha, hz, o, hab⟩ := h
  cases ha
  cases hab with
  | number hx => cases hx
  | uuid _ id => exact ⟨id, hz⟩

theorem valueOrder_reference_uuid {a : Reference} {id : Uuid} (href : z.reference? = none)
    (hz : z.scalar? type none = some (.uuid id)) :
    valueOrder type (.reference a) z = compare a.id id := by
  rw [valueOrder_of_scalars (Or.inr href), scalar?_reference, hz]
  rfl

theorem valueOrder_uuid_reference {a : Reference} {id : Uuid} (href : z.reference? = none)
    (hz : z.scalar? type none = some (.uuid id)) :
    valueOrder type z (.reference a) = compare id a.id := by
  rw [valueOrder_of_scalars (Or.inl href), scalar?_reference, hz]
  rfl

theorem compare_uuid_ne_gt {a b : Uuid} : compare a b ≠ .gt ↔ a.toNat ≤ b.toNat :=
  Nat.compare_ne_gt

theorem ids_eq_of_referenceOrder {a b : Reference} (h : referenceOrder a b = .eq) :
    a.id = b.id := by
  rw [referenceOrder, Ordering.then_eq_eq] at h
  exact congrArg Uuid.mk (BitVec.eq_of_toNat_eq (Nat.compare_eq_eq.mp h.2))

theorem valueOrder_trans (hxy : Comparable type x y) (hyz : Comparable type y z)
    (hxz : Comparable type x z) (hcrossx : ¬ Crosses type x y z) (hcrossy : ¬ Crosses type y z x)
    (hcrossz : ¬ Crosses type z x y) (hle : valueOrder type x y ≠ .gt)
    (hle' : valueOrder type y z ≠ .gt) : valueOrder type x z ≠ .gt := by
  rcases references_or x y with ⟨a, b, rfl, rfl⟩ | hrefxy
  · cases hz : z.reference? with
    | some c =>
      obtain rfl := reference?_eq_some hz
      have hab : referenceOrder a b ≠ .gt := hle
      have hbc : referenceOrder b c ≠ .gt := hle'
      have hac : referenceOrder a c ≠ .gt := Std.TransCmp.le_trans hab hbc
      exact hac
    | none =>
      obtain ⟨id, hid⟩ := exists_uuid_of_comparable hyz
      rw [valueOrder_reference_uuid hz hid, compare_uuid_ne_gt] at hle' ⊢
      by_contra hgt
      cases horder : referenceOrder a b with
      | gt => exact hle horder
      | eq =>
        rw [ids_eq_of_referenceOrder horder] at hgt
        exact hgt hle'
      | lt => exact hcrossx ⟨a, b, id, rfl, rfl, hz, hid, horder, hle', by omega⟩
  · rcases references_or y z with ⟨b, c, rfl, rfl⟩ | hrefyz
    · have hx : x.reference? = none := hrefxy.resolve_right (by simp [reference?])
      obtain ⟨id, hid⟩ := exists_uuid_of_comparable hxy.symm
      rw [valueOrder_uuid_reference hx hid, compare_uuid_ne_gt] at hle ⊢
      by_contra hgt
      cases horder : referenceOrder b c with
      | gt => exact hle' horder
      | eq =>
        rw [ids_eq_of_referenceOrder horder] at hle
        exact hgt hle
      | lt => exact hcrossy ⟨b, c, id, rfl, rfl, hx, hid, horder, by omega, hle⟩
    · rcases references_or x z with ⟨a, c, rfl, rfl⟩ | hrefxz
      · have hy : y.reference? = none := hrefxy.resolve_left (by simp [reference?])
        obtain ⟨id, hid⟩ := exists_uuid_of_comparable hxy
        rw [valueOrder_reference_uuid hy hid, compare_uuid_ne_gt] at hle
        rw [valueOrder_uuid_reference hy hid, compare_uuid_ne_gt] at hle'
        intro hgt
        have hlt : referenceOrder c a = .lt := by
          have hac : referenceOrder a c = .gt := hgt
          have hca : referenceOrder c a = (referenceOrder a c).swap := Std.OrientedCmp.eq_swap
          rw [hca, hac]
          rfl
        exact hcrossz ⟨c, a, id, rfl, rfl, hy, hid, hlt, hle, hle'⟩
      · exact valueOrder_trans_of_scalars hrefxy hrefyz hrefxz hxy hyz hle hle'

instance (type : AttributeType) : Std.Symm (Comparable type) := ⟨fun _ _ => Comparable.symm⟩

def Tied (type : AttributeType) (x y : Value) : Prop := valueOrder type x y = .eq

instance (type : AttributeType) : Std.Symm (Tied type) where
  symm x y h := by
    unfold Tied at *
    rw [valueOrder_swap, h]
    rfl

/-- Values that have an order of their own: none of them are told apart, or all of them can be
compared, and no identifier among them crosses the order of two references. -/
def Ranked (type : AttributeType) (values : List Value) : Prop :=
  values.Pairwise (Tied type) ∨
    values.Pairwise (Comparable type) ∧
      ∀ x ∈ values, ∀ y ∈ values, ∀ z ∈ values, ¬ Crosses type x y z

theorem Ranked.trans {values : List Value} (h : Ranked type values) (hx : x ∈ values)
    (hy : y ∈ values) (hz : z ∈ values) (hle : valueOrder type x y ≠ .gt)
    (hle' : valueOrder type y z ≠ .gt) : valueOrder type x z ≠ .gt := by
  by_cases hxz : x = z
  · rw [hxz, valueOrder_self]
    exact nofun
  · rcases h with htied | ⟨hcomparable, hcross⟩
    · have htie : valueOrder type x z = .eq := htied.forall hx hz hxz
      rw [htie]
      exact nofun
    · by_cases hxy : x = y
      · rwa [hxy]
      · by_cases hyz : y = z
        · rwa [← hyz]
        · have hall := hcomparable.forall
          exact valueOrder_trans (hall hx hy hxy) (hall hy hz hyz) (hall hx hz hxz)
            (hcross x hx y hy z hz) (hcross y hy z hz x hx) (hcross z hz x hx y hy) hle hle'

end Value

namespace SortKey

def Ranks (key : SortKey) (rows : List Record) : Prop :=
  Value.Ranked key.accessor.type (rows.filterMap key.accessor.readPresent?)

variable {key : SortKey} {keys : List SortKey} {rows : List Record} {r s t : Record}

theorem ascendingOrder_swap (accessor : Accessor) (a b : Record) :
    ascendingOrder accessor b a = (ascendingOrder accessor a b).swap := by
  unfold ascendingOrder
  cases accessor.readPresent? a <;> cases accessor.readPresent? b
  case some.some x y => exact Value.valueOrder_swap accessor.type x y
  all_goals rfl

theorem order_swap (key : SortKey) (a b : Record) : key.order b a = (key.order a b).swap := by
  simp only [order]
  split
  · rw [ascendingOrder_swap]
  · rw [ascendingOrder_swap]

theorem orderBy_swap (keys : List SortKey) (a b : Record) :
    orderBy keys b a = (orderBy keys a b).swap := by
  induction keys with
  | nil => rfl
  | cons key keys ih => rw [orderBy, orderBy, order_swap, ih, Ordering.swap_then]

theorem orderBy_self (keys : List SortKey) (a : Record) : orderBy keys a a = .eq := by
  have h := orderBy_swap keys a a
  cases horder : orderBy keys a a with
  | eq => rfl
  | lt | gt =>
    rw [horder] at h
    cases h

theorem ascendingOrder_trans (h : key.Ranks rows) (hr : r ∈ rows) (hs : s ∈ rows) (ht : t ∈ rows)
    (hle : ascendingOrder key.accessor r s ≠ .gt) (hle' : ascendingOrder key.accessor s t ≠ .gt) :
    ascendingOrder key.accessor r t ≠ .gt := by
  have hread : ∀ {row x}, row ∈ rows → key.accessor.readPresent? row = some x →
      x ∈ rows.filterMap key.accessor.readPresent? := fun hrow hx =>
    List.mem_filterMap.mpr ⟨_, hrow, hx⟩
  unfold ascendingOrder at *
  cases hx : key.accessor.readPresent? r with
  | none => cases key.accessor.readPresent? t <;> exact nofun
  | some x =>
    cases hy : key.accessor.readPresent? s with
    | none => exact absurd (by rw [hx, hy]) hle
    | some y =>
      cases hz : key.accessor.readPresent? t with
      | none => exact absurd (by rw [hy, hz]) hle'
      | some z =>
        rw [hx, hy] at hle
        rw [hy, hz] at hle'
        exact h.trans (hread hr hx) (hread hs hy) (hread ht hz) hle hle'

theorem order_trans (h : key.Ranks rows) (hr : r ∈ rows) (hs : s ∈ rows) (ht : t ∈ rows)
    (hle : key.order r s ≠ .gt) (hle' : key.order s t ≠ .gt) : key.order r t ≠ .gt := by
  simp only [order] at *
  split at hle
  · rename_i hdescending
    rw [if_pos hdescending, ← ascendingOrder_swap] at *
    exact ascendingOrder_trans h ht hs hr hle' hle
  · rename_i hascending
    rw [if_neg hascending] at *
    exact ascendingOrder_trans h hr hs ht hle hle'

theorem order_eq_of_le (h : key.Ranks rows) (hr : r ∈ rows) (hs : s ∈ rows) (ht : t ∈ rows)
    (hle : key.order r s ≠ .gt) (hle' : key.order s t ≠ .gt) (heq : key.order r t = .eq) :
    key.order r s = .eq ∧ key.order s t = .eq := by
  have htr : key.order t r ≠ .gt := by
    rw [order_swap, heq]
    exact nofun
  have hsr := order_trans h hs ht hr hle' htr
  have hts := order_trans h ht hr hs htr hle
  rw [order_swap] at hsr hts
  constructor
  · cases horder : key.order r s with
    | eq => rfl
    | gt => exact absurd horder hle
    | lt => simp [horder] at hsr
  · cases horder : key.order s t with
    | eq => rfl
    | gt => exact absurd horder hle'
    | lt => simp [horder] at hts

def RanksInTurn (rows : List Record) (r s t : Record) : List SortKey → Prop
  | [] => True
  | key :: keys => key.Ranks rows ∧
    (key.order r s = .eq → key.order s t = .eq → RanksInTurn rows r s t keys)

theorem ranksInTurn_of_ranks (h : ∀ key ∈ keys, key.Ranks rows) (r s t : Record) :
    RanksInTurn rows r s t keys := by
  induction keys with
  | nil => trivial
  | cons key keys ih =>
    obtain ⟨hkey, hkeys⟩ := List.forall_mem_cons.mp h
    exact ⟨hkey, fun _ _ => ih hkeys⟩

theorem orderBy_trans (h : RanksInTurn rows r s t keys) (hr : r ∈ rows) (hs : s ∈ rows)
    (ht : t ∈ rows) (hle : orderBy keys r s ≠ .gt) (hle' : orderBy keys s t ≠ .gt) :
    orderBy keys r t ≠ .gt := by
  induction keys with
  | nil => exact nofun
  | cons key keys ih =>
    obtain ⟨hkey, hkeys⟩ := h
    have hne : ∀ {o o' : Ordering}, o.then o' ≠ .gt → o ≠ .gt := by
      rintro _ _ h rfl
      exact h rfl
    rw [orderBy] at hle hle' ⊢
    have htrans := order_trans hkey hr hs ht (hne hle) (hne hle')
    cases horder : key.order r t with
    | gt => exact absurd horder htrans
    | lt => exact nofun
    | eq =>
      obtain ⟨hrs, hst⟩ := order_eq_of_le hkey hr hs ht (hne hle) (hne hle') horder
      rw [hrs, Ordering.eq_then] at hle
      rw [hst, Ordering.eq_then] at hle'
      rw [Ordering.eq_then]
      exact ih (hkeys hrs hst) hle hle'

/-- The order is transitive on three rows if what a key reads from them, other than null, has an
order of its own: if no two of the values are told apart, or all of them can be compared and none of
them is an identifier that crosses the order of the other two, which are references. -/
theorem orderBy_preorder (keys : List SortKey) (r s t : Record) :
    orderBy keys r r = .eq ∧ orderBy keys s r = (orderBy keys r s).swap ∧
      (RanksInTurn [r, s, t] r s t keys → orderBy keys r s ≠ .gt → orderBy keys s t ≠ .gt →
        orderBy keys r t ≠ .gt) := by
  refine ⟨orderBy_self keys r, orderBy_swap keys r s, fun hranks hle hle' => ?_⟩
  have hmem : r ∈ [r, s, t] ∧ s ∈ [r, s, t] ∧ t ∈ [r, s, t] := by simp
  exact orderBy_trans hranks hmem.1 hmem.2.1 hmem.2.2 hle hle'

def byOwner : SortKey := ⟨⟨"ownerid", .reference, none⟩, true⟩

def byEmployees : SortKey := ⟨⟨"employees", .int, none⟩, false⟩

def ownedAccount (owner employees : Value) : Record :=
  ⟨"account", .nil, .ofList [("ownerid", owner), ("employees", employees)]⟩

def owner (n : Nat) (name : String) : Reference := ⟨"user", .ofNat n, some name⟩

theorem ranked_owners : Value.Ranked .reference
    [.reference (owner 3 "Zed"), .uuid (.ofNat 2), .reference (owner 1 "Amy")] := by
  refine Or.inr ⟨?_, ?_⟩
  · simp only [List.pairwise_cons, List.forall_mem_cons]
    exact ⟨⟨⟨_, _, rfl, rfl, _, .uuid _ _⟩, ⟨_, _, rfl, rfl, _, .uuid _ _⟩, nofun⟩,
      ⟨⟨_, _, rfl, rfl, _, .uuid _ _⟩, nofun⟩, nofun, .nil⟩
  · rintro x hx y hy z - ⟨a, b, id, rfl, rfl, -, -, hlt, hle, hle'⟩
    have howner : ∀ {target : Reference}, Value.reference target ∈
        [.reference (owner 3 "Zed"), .uuid (.ofNat 2), .reference (owner 1 "Amy")] →
        target = owner 3 "Zed" ∨ target = owner 1 "Amy" := by
      intro target htarget
      simpa using htarget
    rcases howner hx with rfl | rfl
    · rcases howner hy with rfl | rfl
      · exact absurd hlt (by decide)
      · exact absurd hlt (by decide)
    · rcases howner hy with rfl | rfl
      · exact absurd (hle.trans hle') (by decide)
      · exact absurd hlt (by decide)

theorem orderBy_preorder_owners :
    RanksInTurn
      [ownedAccount (.reference (owner 3 "Zed")) (.int 2),
        ownedAccount (.uuid (.ofNat 2)) (.text "many"),
        ownedAccount (.reference (owner 1 "Amy")) (.int 1)]
      (ownedAccount (.reference (owner 3 "Zed")) (.int 2))
      (ownedAccount (.uuid (.ofNat 2)) (.text "many"))
      (ownedAccount (.reference (owner 1 "Amy")) (.int 1)) [byOwner, byEmployees] ∧
      orderBy [byOwner, byEmployees] (ownedAccount (.reference (owner 3 "Zed")) (.int 2))
        (ownedAccount (.reference (owner 1 "Amy")) (.int 1)) ≠ .gt := by
  have hranks : RanksInTurn
      [ownedAccount (.reference (owner 3 "Zed")) (.int 2),
        ownedAccount (.uuid (.ofNat 2)) (.text "many"),
        ownedAccount (.reference (owner 1 "Amy")) (.int 1)]
      (ownedAccount (.reference (owner 3 "Zed")) (.int 2))
      (ownedAccount (.uuid (.ofNat 2)) (.text "many"))
      (ownedAccount (.reference (owner 1 "Amy")) (.int 1)) [byOwner, byEmployees] :=
    ⟨ranked_owners, fun htie => absurd htie (by decide)⟩
  exact ⟨hranks, (orderBy_preorder _ _ (ownedAccount (.uuid (.ofNat 2)) (.text "many")) _).2.2
    hranks (by decide) (by decide)⟩

theorem exists_orderBy_not_trans :
    (orderBy [byEmployees] (ownedAccount .null (.int 2)) (ownedAccount .null (.text "many")) ≠
        .gt ∧
      orderBy [byEmployees] (ownedAccount .null (.text "many")) (ownedAccount .null (.int 1)) ≠
        .gt ∧
      orderBy [byEmployees] (ownedAccount .null (.int 2)) (ownedAccount .null (.int 1)) = .gt) ∧
    (orderBy [byOwner] (ownedAccount (.reference (owner 3 "Amy")) .null)
        (ownedAccount (.uuid (.ofNat 2)) .null) ≠ .gt ∧
      orderBy [byOwner] (ownedAccount (.uuid (.ofNat 2)) .null)
        (ownedAccount (.reference (owner 1 "Zed")) .null) ≠ .gt ∧
      orderBy [byOwner] (ownedAccount (.reference (owner 3 "Amy")) .null)
        (ownedAccount (.reference (owner 1 "Zed")) .null) = .gt) := by
  refine ⟨⟨by decide, by decide, by decide⟩, by decide, by decide, by decide⟩

end SortKey

end RecordQuery
