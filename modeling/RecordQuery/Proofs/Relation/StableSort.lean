import RecordQuery.Proofs.Relation.KeyOrder
import RecordQuery.Proofs.Relation.Sorting

namespace RecordQuery

namespace SortKey

inductive Stands (accessor : Accessor) : Record → Record → Ordering → Prop
  | absent {a b : Record} : accessor.readPresent? a = none → accessor.readPresent? b = none →
    Stands accessor a b .eq
  | before {a b : Record} {y : Value} : accessor.readPresent? a = none →
    accessor.readPresent? b = some y → Stands accessor a b .lt
  | behind {a b : Record} {x : Value} : accessor.readPresent? a = some x →
    accessor.readPresent? b = none → Stands accessor a b .gt
  | values {a b : Record} {x y : Value} {o : Ordering} : accessor.readPresent? a = some x →
    accessor.readPresent? b = some y → x.Compares accessor.type y o → Stands accessor a b o

def Precedes (key : SortKey) (a b : Record) : Prop :=
  if key.descending then Stands key.accessor b a .lt else Stands key.accessor a b .lt

inductive Before : List SortKey → Record → Record → Prop
  | here {key : SortKey} {keys : List SortKey} {a b : Record} : key.Precedes a b →
    Before (key :: keys) a b
  | later {key : SortKey} {keys : List SortKey} {a b : Record} : Stands key.accessor a b .eq →
    Before keys a b → Before (key :: keys) a b

def Ties (keys : List SortKey) (a b : Record) : Prop :=
  ∀ key ∈ keys, Stands key.accessor a b .eq

/-- The values that the key reads from the rows, other than null, are all references, or none of
them is one and all of them can be compared. -/
def Uniform (key : SortKey) (rows : List Record) : Prop :=
  (∀ x ∈ rows.filterMap key.accessor.readPresent?, ∃ target, x = .reference target) ∨
    (∀ x ∈ rows.filterMap key.accessor.readPresent?, x.reference? = none) ∧
      (rows.filterMap key.accessor.readPresent?).Pairwise (Value.Comparable key.accessor.type)

variable {key : SortKey} {keys : List SortKey} {rows : List Record} {a b : Record}

theorem Uniform.pairwise (h : key.Uniform rows) :
    (rows.filterMap key.accessor.readPresent?).Pairwise (Value.Comparable key.accessor.type) := by
  rcases h with hrefs | ⟨-, hcomparable⟩
  · refine List.pairwise_of_forall_mem_list fun x hx y hy => ?_
    obtain ⟨a, rfl⟩ := hrefs x hx
    obtain ⟨b, rfl⟩ := hrefs y hy
    exact ⟨_, _, rfl, rfl, _, .uuid a.id b.id⟩
  · exact hcomparable

theorem Uniform.ranks (h : key.Uniform rows) : key.Ranks rows := by
  refine Or.inr ⟨h.pairwise, ?_⟩
  rintro x hx y - z hz ⟨a, b, id, rfl, -, hid, -⟩
  rcases h with hrefs | ⟨hnone, -⟩
  · obtain ⟨c, rfl⟩ := hrefs z hz
    cases hid
  · cases hnone _ hx

def Meets (key : SortKey) (a b : Record) : Prop :=
  ∀ x, key.accessor.readPresent? a = some x → ∀ y, key.accessor.readPresent? b = some y →
    Value.Comparable key.accessor.type x y

theorem Meets.symm (h : key.Meets a b) : key.Meets b a :=
  fun x hx y hy => (h y hy x hx).symm

theorem Meets.stands (h : key.Meets a b) :
    Stands key.accessor a b (ascendingOrder key.accessor a b) := by
  unfold ascendingOrder
  cases hx : key.accessor.readPresent? a with
  | none =>
    cases hy : key.accessor.readPresent? b with
    | none => exact .absent hx hy
    | some y => exact .before hx hy
  | some x =>
    cases hy : key.accessor.readPresent? b with
    | none => exact .behind hx hy
    | some y => exact .values hx hy (h x hx y hy).compares

theorem Meets.precedes (h : key.Meets a b) (horder : key.order a b = .lt) : key.Precedes a b := by
  simp only [order] at horder
  unfold Precedes
  split
  · rename_i hdescending
    rw [if_pos hdescending, ← ascendingOrder_swap] at horder
    exact horder ▸ h.symm.stands
  · rename_i hascending
    rw [if_neg hascending] at horder
    exact horder ▸ h.stands

theorem Meets.stands_eq (h : key.Meets a b) (horder : key.order a b = .eq) :
    Stands key.accessor a b .eq := by
  have hascending : ascendingOrder key.accessor a b = .eq := by
    simp only [order] at horder
    split at horder
    · exact Ordering.swap_eq_eq.mp horder
    · exact horder
  exact hascending ▸ h.stands

theorem ties_of_orderBy (h : ∀ key ∈ keys, key.Meets a b) (horder : orderBy keys a b = .eq) :
    Ties keys a b := by
  induction keys with
  | nil => exact nofun
  | cons key keys ih =>
    rw [orderBy, Ordering.then_eq_eq] at horder
    intro other hother
    rcases List.mem_cons.mp hother with rfl | hother
    · exact (h _ List.mem_cons_self).stands_eq horder.1
    · exact ih (fun other hother => h other (List.mem_cons_of_mem _ hother)) horder.2 other hother

theorem before_of_orderBy (h : ∀ key ∈ keys, key.Meets a b) (horder : orderBy keys a b = .lt) :
    Before keys a b := by
  induction keys with
  | nil => cases horder
  | cons key keys ih =>
    rw [orderBy, Ordering.then_eq_lt] at horder
    rcases horder with hlt | ⟨heq, hlt⟩
    · exact .here ((h key List.mem_cons_self).precedes hlt)
    · exact .later ((h key List.mem_cons_self).stands_eq heq)
        (ih (fun other hother => h other (List.mem_cons_of_mem _ hother)) hlt)

end SortKey

/-- To stand no later by the keys is transitive among the rows. -/
def SortKey.Orders (keys : List SortKey) (rows : List Record) : Prop :=
  ∀ r ∈ rows, ∀ s ∈ rows, ∀ t ∈ rows,
    orderBy keys r s ≠ .gt → orderBy keys s t ≠ .gt → orderBy keys r t ≠ .gt

instance (keys : List SortKey) (rows : List Record) : Decidable (SortKey.Orders keys rows) :=
  inferInstanceAs (Decidable (∀ r ∈ rows, ∀ s ∈ rows, ∀ t ∈ rows, _))

theorem SortKey.Orders.mono {keys : List SortKey} {rows others : List Record} (h : Orders keys rows)
    (hsubset : others ⊆ rows) : Orders keys others :=
  fun r hr s hs t ht => h r (hsubset hr) s (hsubset hs) t (hsubset ht)

theorem SortKey.orders_of_ranks {keys : List SortKey} {rows : List Record}
    (h : ∀ key ∈ keys, key.Ranks rows) : Orders keys rows :=
  fun r hr s hs t ht => orderBy_trans (ranksInTurn_of_ranks h r s t) hr hs ht

namespace Relation

open SortKey

variable {keys : List SortKey} {rows : List Record}

theorem insertLast_eq_append (keys : List SortKey) (record : Record) (sorted : List Record) :
    ∃ front back, sorted = front ++ back ∧
      insertLast keys record sorted = front ++ record :: back ∧
      (∀ row ∈ front, orderBy keys record row = .lt) ∧
      ∀ row, back.head? = some row → orderBy keys record row ≠ .lt := by
  induction sorted with
  | nil => exact ⟨[], [], rfl, rfl, nofun, nofun⟩
  | cons last rest ih =>
    unfold insertLast
    split
    · rename_i hlt
      obtain ⟨front, back, rfl, hinsert, hfront, hback⟩ := ih
      refine ⟨last :: front, back, rfl, by rw [hinsert]; rfl, ?_, hback⟩
      rintro row hrow
      rcases List.mem_cons.mp hrow with rfl | hrow
      · exact hlt
      · exact hfront row hrow
    · rename_i hle
      refine ⟨[], last :: rest, rfl, rfl, nofun, ?_⟩
      rintro _ ⟨⟩
      exact hle

def Ordered (keys : List SortKey) (a b : Record × Nat) : Prop :=
  orderBy keys a.1 b.1 = .lt ∨ orderBy keys a.1 b.1 = .eq ∧ a.2 < b.2

theorem Ordered.ne_gt {a b : Record × Nat} (h : Ordered keys a b) :
    orderBy keys a.1 b.1 ≠ .gt := by
  rcases h with h | ⟨h, -⟩
  · rw [h]
    exact nofun
  · rw [h]
    exact nofun

/-- Of the rows that have been put in, numbered as they came, the sorted ones are an arrangement in
order. The last of them stands first. -/
def Arranged (keys : List SortKey) (rows sorted : List Record) : Prop :=
  ∃ placed : List (Record × Nat), placed.Perm rows.zipIdx ∧ sorted = placed.map (·.1) ∧
    placed.Pairwise fun a b => Ordered keys b a

theorem Arranged.insertLast {sorted : List Record} {record : Record}
    (h : Arranged keys rows sorted)
    (htrans : ∀ r ∈ rows, ∀ s ∈ rows, orderBy keys r s ≠ .gt → orderBy keys s record ≠ .gt →
      orderBy keys r record ≠ .gt) :
    Arranged keys (rows ++ [record]) (insertLast keys record sorted) := by
  obtain ⟨placed, hperm, rfl, hordered⟩ := h
  obtain ⟨front, back, hsplit, hinsert, hfront, hback⟩ :=
    insertLast_eq_append keys record (placed.map (·.1))
  obtain ⟨first, last, rfl, rfl, rfl⟩ := List.map_eq_append_iff.mp hsplit
  have hmem : ∀ row ∈ first ++ last, row.1 ∈ rows ∧ row.2 < rows.length := by
    intro row hrow
    obtain ⟨hlt, hget⟩ := List.mem_zipIdx' (hperm.subset hrow)
    exact ⟨hget ▸ List.getElem_mem hlt, hlt⟩
  refine ⟨first ++ (record, rows.length) :: last, ?_, ?_, ?_⟩
  · rw [List.zipIdx_append, Nat.zero_add]
    exact List.perm_middle.trans ((hperm.cons _).trans (List.perm_append_singleton _ _).symm)
  · rw [hinsert, List.map_append, List.map_cons]
  · obtain ⟨hfirst, hlast, hcross⟩ := List.pairwise_append.mp hordered
    have hle : ∀ row ∈ last, orderBy keys row.1 record ≠ .gt := by
      cases last with
      | nil => exact nofun
      | cons nearest others =>
        have hnearest : orderBy keys nearest.1 record ≠ .gt := by
          have hne := hback nearest.1 rfl
          rw [orderBy_swap]
          cases horder : orderBy keys record nearest.1 with
          | lt => exact absurd horder hne
          | eq | gt => exact nofun
        intro row hrow
        rcases List.mem_cons.mp hrow with rfl | hothers
        · exact hnearest
        · exact htrans row.1 (hmem row (List.mem_append_right _ hrow)).1 nearest.1
            (hmem nearest (by simp)).1 ((List.pairwise_cons.mp hlast).1 row hothers).ne_gt hnearest
    have hbehind : ∀ row ∈ last, Ordered keys row (record, rows.length) := by
      intro row hrow
      cases horder : orderBy keys row.1 record with
      | lt => exact Or.inl horder
      | eq => exact Or.inr ⟨horder, (hmem row (List.mem_append_right _ hrow)).2⟩
      | gt => exact absurd horder (hle row hrow)
    refine List.pairwise_append.mpr ⟨hfirst, List.pairwise_cons.mpr ⟨hbehind, hlast⟩, ?_⟩
    intro row hrow other hother
    rcases List.mem_cons.mp hother with rfl | hother
    · exact Or.inl (hfront row.1 (List.mem_map_of_mem hrow))
    · exact hcross row hrow other hother

theorem arranged_foldl {sorted : List Record} (rest : List Record)
    (h : Arranged keys rows sorted)
    (htrans : Orders keys (rows ++ rest)) :
    Arranged keys (rows ++ rest)
      (rest.foldl (fun sorted record => insertLast keys record sorted) sorted) := by
  induction rest generalizing rows sorted with
  | nil => rwa [List.append_nil]
  | cons record rest ih =>
    have hrecord : record ∈ rows ++ record :: rest := by simp
    have hstep := h.insertLast fun r hr s hs =>
      htrans r (List.mem_append_left _ hr) s (List.mem_append_left _ hs) record hrecord
    rw [List.append_cons, List.foldl_cons]
    rw [List.append_cons] at htrans
    exact ih hstep htrans

def SortedBy (keys : List SortKey) (rows sorted : List Record) : Prop :=
  ∃ placed : List (Record × Nat), placed.Perm rows.zipIdx ∧ sorted = placed.map (·.1) ∧
    placed.Pairwise (Ordered keys)

theorem SortedBy.perm {sorted : List Record} (h : SortedBy keys rows sorted) :
    sorted.Perm rows := by
  obtain ⟨placed, hperm, rfl, -⟩ := h
  have hnumbered := hperm.map (·.1)
  rwa [List.zipIdx_map_fst] at hnumbered

theorem Ordered.not_symm {a b : Record × Nat} (h : Ordered keys a b) : ¬ Ordered keys b a := by
  intro hback
  unfold Ordered at h hback
  rw [orderBy_swap keys a.1 b.1] at hback
  rcases h with hlt | ⟨heq, hnumber⟩
  · simp [hlt] at hback
  · simp only [heq, Ordering.swap_eq, reduceCtorEq, true_and, false_or] at hback
    omega

theorem SortedBy.unique {sorted others : List Record} (h : SortedBy keys rows sorted)
    (h' : SortedBy keys rows others) : sorted = others := by
  obtain ⟨placed, hperm, rfl, hordered⟩ := h
  obtain ⟨placed', hperm', rfl, hordered'⟩ := h'
  have hsame : placed = placed' := by
    apply List.Perm.eq_of_pairwise _ hordered hordered' (hperm.trans hperm'.symm)
    intro a b _ _ hab hba
    exact absurd hba hab.not_symm
  rw [hsame]

theorem sort_sortedBy (relation : Relation) (h : Orders keys relation.records) :
    SortedBy keys relation.records (relation.sort keys).records := by
  have hempty : Arranged keys [] [] := ⟨[], .nil, rfl, .nil⟩
  obtain ⟨placed, hperm, hsorted, hordered⟩ := arranged_foldl relation.records hempty h
  refine ⟨placed.reverse, (List.reverse_perm _).trans hperm, ?_, ?_⟩
  · rw [List.map_reverse, ← hsorted]
    rfl
  · exact List.pairwise_reverse.mpr hordered

/-- Where each key reads references alone, or values that are no references and can be compared, the
sorted rows are the rows, each with its number, in an order in which a row that comes first either
stands before the other by the keys, or ties with it on all of them and has the lesser number. -/
theorem sort_arranged (relation : Relation) {keys : List SortKey}
    (h : ∀ key ∈ keys, key.Uniform relation.records) :
    (relation.sort keys).aliases = relation.aliases ∧
      ∃ placed : List (Record × Nat), placed.Perm relation.records.zipIdx ∧
        (relation.sort keys).records = placed.map (·.1) ∧
        placed.Pairwise fun a b => Before keys a.1 b.1 ∨ Ties keys a.1 b.1 ∧ a.2 < b.2 := by
  refine ⟨rfl, ?_⟩
  have horders : Orders keys relation.records := orders_of_ranks fun key hkey => (h key hkey).ranks
  have hsortedBy := sort_sortedBy relation horders
  have hrows := hsortedBy.perm
  obtain ⟨placed, hperm, hsorted, hordered⟩ := hsortedBy
  refine ⟨placed, hperm, hsorted, ?_⟩
  have hmeets : relation.records.Pairwise fun a b => ∀ key ∈ keys, key.Meets a b :=
    List.pairwise_iff_forall_sublist.mpr fun hsublist key hkey =>
      List.pairwise_iff_forall_sublist.mp (List.pairwise_filterMap.mp (h key hkey).pairwise)
        hsublist
  rw [hsorted] at hrows
  have hplaced := List.pairwise_map.mp ((hrows.pairwise_iff
    fun hab key hkey => (hab key hkey).symm).mpr hmeets)
  refine (hordered.and hplaced).imp ?_
  rintro a b ⟨hlt | ⟨heq, hnumber⟩, hall⟩
  · exact Or.inl (before_of_orderBy hall hlt)
  · exact Or.inr ⟨ties_of_orderBy hall heq, hnumber⟩

def byRevenue : SortKey := ⟨⟨"revenue", .money, none⟩, true⟩

def byFirstOwner : SortKey := ⟨⟨"ownerid", .reference, none⟩, false⟩

def earningAccount (n : Nat) (revenue owner : Value) : Record :=
  ⟨"account", .ofNat n, .ofList [("revenue", revenue), ("ownerid", owner)]⟩

def earningAccounts : Relation :=
  .ofRecords [earningAccount 1 (.int 20) (.reference (owner 5 "Zed")),
    earningAccount 2 .null .null,
    earningAccount 3 (.decimal (.ofInt64 20)) (.reference (owner 6 "amy")),
    earningAccount 4 (.money (.ofInt64 20)) (.reference (owner 6 "Amy"))]

theorem sort_arranged_accounts :
    ((earningAccounts.sort [byRevenue, byFirstOwner]).records.map (·.id.toNat)) = [3, 4, 1, 2] ∧
      (∀ key ∈ [byRevenue, byFirstOwner], key.Uniform earningAccounts.records) ∧
      ∃ placed : List (Record × Nat), placed.Perm earningAccounts.records.zipIdx ∧
        (earningAccounts.sort [byRevenue, byFirstOwner]).records = placed.map (·.1) ∧
        placed.Pairwise fun a b => Before [byRevenue, byFirstOwner] a.1 b.1 ∨
          Ties [byRevenue, byFirstOwner] a.1 b.1 ∧ a.2 < b.2 := by
  have huniform : ∀ key ∈ [byRevenue, byFirstOwner], key.Uniform earningAccounts.records := by
    intro key hkey
    rcases List.mem_pair.mp hkey with rfl | rfl
    · have hcompares : ∀ m n, Scalar.Comparable (.decimal m) (.decimal n) :=
        fun m n => ⟨_, .number rfl rfl⟩
      refine Or.inr ⟨by decide, ?_⟩
      change List.Pairwise (Value.Comparable .money)
        [.int 20, .decimal (.ofInt64 20), .money (.ofInt64 20)]
      simp only [List.pairwise_cons, List.forall_mem_cons]
      exact ⟨⟨⟨_, _, rfl, rfl, hcompares _ _⟩, ⟨_, _, rfl, rfl, hcompares _ _⟩, nofun⟩,
        ⟨⟨_, _, rfl, rfl, hcompares _ _⟩, nofun⟩, nofun, .nil⟩
    · refine Or.inl ?_
      change ∀ x ∈ [Value.reference (owner 5 "Zed"), .reference (owner 6 "amy"),
        .reference (owner 6 "Amy")], _
      simp only [List.forall_mem_cons]
      exact ⟨⟨_, rfl⟩, ⟨_, rfl⟩, ⟨_, rfl⟩, nofun⟩
  exact ⟨by decide, huniform, (sort_arranged earningAccounts huniform).2⟩

end Relation

end RecordQuery
