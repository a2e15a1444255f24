import Mathlib.Data.List.Induction
import Mathlib.Data.List.Nodup
import RecordQuery.Proofs.Outcome
import RecordQuery.Proofs.Value.Keys

/-!
The loop that puts the rows into groups. Every row gets the number of its group, and with each
further row the groups remain those of the numbers, with different keys, and in the order of their
first rows.
-/

namespace RecordQuery

def Value.sameKey (a b : Value) : Bool :=
  match a.key?, b.key? with
  | none, none => true
  | some key, some other => key.sameKey other
  | _, _ => false

def AggregateColumn.agrees (column : AggregateColumn) (offset : UtcOffset) (a b : Record) : Bool :=
  match column.role with
  | .groupBy grouping? =>
    match column.groupValue offset grouping? a, column.groupValue offset grouping? b with
    | .ok value, .ok other => value.sameKey other
    | _, _ => false
  | .apply _ _ => true

namespace Relation

def sharesGroup (offset : UtcOffset) (columns : List AggregateColumn) (a b : Record) : Bool :=
  columns.all fun column => column.agrees offset a b

theorem sameGroup_cons (a b : Value) (key other : List (Option Scalar)) :
    sameGroup (a.key? :: key) (b.key? :: other) = (a.sameKey b && sameGroup key other) := by
  rw [Value.sameKey]
  cases a.key? <;> cases b.key? <;> simp [sameGroup]

theorem sharesGroup_eq {offset : UtcOffset} {columns : List AggregateColumn} {a b : Record}
    {key other : List (Option Scalar)} (ha : groupKey offset columns a = .ok key)
    (hb : groupKey offset columns b = .ok other) :
    sharesGroup offset columns a b = sameGroup key other := by
  induction columns generalizing key other with
  | nil =>
    obtain rfl := Except.ok.inj ha
    obtain rfl := Except.ok.inj hb
    rfl
  | cons column rest ih =>
    unfold groupKey at ha hb
    rw [List.filterMapM_cons] at ha hb
    unfold sharesGroup
    rw [List.all_cons, ← sharesGroup, AggregateColumn.agrees]
    cases hrole : column.role with
    | apply function distinct =>
      rw [hrole] at ha hb
      rw [Bool.true_and]
      exact ih ha hb
    | groupBy grouping? =>
      rw [hrole] at ha hb
      obtain ⟨_, hkey, ha⟩ := bind_eq_ok_iff.mp ha
      obtain ⟨value, hvalue, hkey⟩ := bind_eq_ok_iff.mp hkey
      obtain rfl := Except.ok.inj hkey
      obtain ⟨_, hkey, hb⟩ := bind_eq_ok_iff.mp hb
      obtain ⟨value', hvalue', hkey⟩ := bind_eq_ok_iff.mp hkey
      obtain rfl := Except.ok.inj hkey
      obtain ⟨keys, hkeys, ha⟩ := bind_eq_ok_iff.mp ha
      obtain rfl := Except.ok.inj ha
      obtain ⟨keys', hkeys', hb⟩ := bind_eq_ok_iff.mp hb
      obtain rfl := Except.ok.inj hb
      simp only [hvalue, hvalue']
      rw [sameGroup_cons, ih hkeys hkeys']

def members (placed : List (Record × Nat)) (number : Nat) : List Record :=
  (placed.filter fun row => row.2 == number).map (·.1)

theorem members_append (placed others : List (Record × Nat)) (number : Nat) :
    members (placed ++ others) number = members placed number ++ members others number := by
  rw [members, List.filter_append, List.map_append, members, members]

theorem members_singleton (row : Record) (own number : Nat) :
    members [(row, own)] number = if own = number then [row] else [] := by
  by_cases h : own = number <;> simp [members, h]

def meanings (grouped : List (List (Option Scalar) × List Record)) :
    List (List (Option (Scalar ⊕ ℚ))) :=
  grouped.map fun group => keyMeaning group.1

theorem length_meanings (grouped : List (List (Option Scalar) × List Record)) :
    (meanings grouped).length = grouped.length :=
  List.length_map _

theorem place_cases (key : List (Option Scalar)) (record : Record)
    (grouped : List (List (Option Scalar) × List Record)) :
    (∃ number, (meanings grouped)[number]? = some (keyMeaning key) ∧
      meanings (place key record grouped) = meanings grouped ∧
      (place key record grouped).map (·.2) =
        (grouped.map (·.2)).modify number (· ++ [record])) ∨
    (keyMeaning key ∉ meanings grouped ∧
      place key record grouped = grouped ++ [(key, [record])]) := by
  induction grouped with
  | nil => exact .inr ⟨List.not_mem_nil, rfl⟩
  | cons first rest ih =>
    obtain ⟨other, group⟩ := first
    by_cases h : sameGroup other key = true
    · have hplace : place key record ((other, group) :: rest) =
          (other, group ++ [record]) :: rest := by rw [place, if_pos h]
      refine .inl ⟨0, ?_, ?_, ?_⟩
      · rw [meanings, List.map_cons, List.getElem?_cons_zero, (sameGroup_iff other key).mp h]
      · rw [hplace]
        rfl
      · rw [hplace]
        rfl
    · have hplace : place key record ((other, group) :: rest) =
          (other, group) :: place key record rest := by rw [place, if_neg h]
      rw [hplace]
      rcases ih with ⟨number, hnumber, hmeanings, hgroups⟩ | ⟨hnew, hrest⟩
      · refine .inl ⟨number + 1, hnumber, ?_, ?_⟩
        · rw [meanings, List.map_cons, ← meanings, hmeanings]
          rfl
        · rw [List.map_cons, hgroups, List.map_cons, List.modify_succ_cons]
      · refine .inr ⟨?_, by rw [hrest, List.cons_append]⟩
        intro hmem
        rcases List.mem_cons.mp hmem with heq | hmem
        · exact h ((sameGroup_iff other key).mpr heq.symm)
        · exact hnew hmem

def InOrder (placed : List (Record × Nat)) (count : Nat) : Prop :=
  ∀ number < count, ∃ before row after, placed = before ++ (row, number) :: after ∧
    ∀ earlier ∈ before, earlier.2 < number

structure Placed (key : Record → List (Option Scalar)) (placed : List (Record × Nat))
    (grouped : List (List (Option Scalar) × List Record)) : Prop where
  home : ∀ row ∈ placed, (meanings grouped)[row.2]? = some (keyMeaning (key row.1))
  apart : (meanings grouped).Nodup
  groups : grouped.map (·.2) = (List.range grouped.length).map (members placed)
  inOrder : InOrder placed grouped.length

namespace Placed

variable {key : Record → List (Option Scalar)} {placed : List (Record × Nat)}
  {grouped : List (List (Option Scalar) × List Record)}

theorem lt_length (h : Placed key placed grouped) {row : Record × Nat} (hrow : row ∈ placed) :
    row.2 < grouped.length := by
  have hlt := (List.getElem?_eq_some_iff.mp (h.home row hrow)).1
  rwa [length_meanings] at hlt

theorem together (h : Placed key placed grouped) {row other : Record × Nat} (hrow : row ∈ placed)
    (hother : other ∈ placed) :
    row.2 = other.2 ↔ sameGroup (key row.1) (key other.1) = true := by
  have hfirst := h.home row hrow
  have hsecond := h.home other hother
  have hlt := (List.getElem?_eq_some_iff.mp hfirst).1
  rw [sameGroup_iff, ← List.getElem?_inj hlt h.apart, hfirst, hsecond, Option.some.injEq]

theorem members_of_length_le (h : Placed key placed grouped) {number : Nat}
    (hnumber : grouped.length ≤ number) : members placed number = [] := by
  rw [members, List.map_eq_nil_iff, List.filter_eq_nil_iff]
  intro row hrow
  have hlt := h.lt_length hrow
  simp only [beq_iff_eq]
  omega

theorem exists_of_lt (h : Placed key placed grouped) {number : Nat}
    (hnumber : number < grouped.length) : ∃ row ∈ placed, row.2 = number := by
  obtain ⟨before, row, after, rfl, -⟩ := h.inOrder number hnumber
  exact ⟨(row, number), List.mem_append_right before List.mem_cons_self, rfl⟩

theorem members_eq (h : Placed key placed grouped) {row : Record × Nat} (hrow : row ∈ placed) :
    members placed row.2 =
      (placed.map (·.1)).filter fun other => sameGroup (key row.1) (key other) := by
  rw [members, List.filter_map]
  congr 1
  apply List.filter_congr
  intro other hother
  rw [Bool.eq_iff_iff, beq_iff_eq, eq_comm]
  exact h.together hrow hother

theorem nil : Placed key [] [] :=
  ⟨fun _ h => by contradiction, List.nodup_nil, rfl, fun _ h => by contradiction⟩

theorem join (h : Placed key placed grouped) {row : Record} {number : Nat}
    {after : List (List (Option Scalar) × List Record)}
    (hnumber : (meanings grouped)[number]? = some (keyMeaning (key row)))
    (hmeanings : meanings after = meanings grouped)
    (hgroups : after.map (·.2) = (grouped.map (·.2)).modify number (· ++ [row])) :
    Placed key (placed ++ [(row, number)]) after := by
  have hlength : after.length = grouped.length := by
    rw [← length_meanings, hmeanings, length_meanings]
  constructor
  · -- no group has got another key, so the rows before are at home where they were
    intro other hother
    rw [hmeanings]
    rcases List.mem_append.mp hother with hother | hother
    · exact h.home other hother
    · obtain rfl := List.mem_singleton.mp hother
      exact hnumber
  · rw [hmeanings]
    exact h.apart
  · rw [hgroups, h.groups, hlength]
    apply List.ext_getElem?
    intro k
    rw [List.getElem?_modify, List.getElem?_map, List.getElem?_map]
    by_cases hk : k < grouped.length
    · rw [List.getElem?_range hk, Option.map_some, Option.map_some, Option.map_eq_map,
        Option.map_some, members_append, members_singleton]
      by_cases heq : number = k <;> simp [heq]
    · rw [List.getElem?_eq_none (by simpa using hk)]
      rfl
  · rw [hlength]
    intro k hk
    obtain ⟨before, first, rest, rfl, hbefore⟩ := h.inOrder k hk
    exact ⟨before, first, rest ++ [(row, number)], by simp, hbefore⟩

theorem begin (h : Placed key placed grouped) {row : Record}
    (hnew : keyMeaning (key row) ∉ meanings grouped) :
    Placed key (placed ++ [(row, grouped.length)]) (grouped ++ [(key row, [row])]) := by
  have hmeanings : meanings (grouped ++ [(key row, [row])]) =
      meanings grouped ++ [keyMeaning (key row)] := List.map_append
  have hlength : (grouped ++ [(key row, [row])]).length = grouped.length + 1 :=
    List.length_append
  constructor
  · intro other hother
    rw [hmeanings]
    rcases List.mem_append.mp hother with hother | hother
    · have hlt := h.lt_length hother
      rw [List.getElem?_append_left (by rwa [length_meanings])]
      exact h.home other hother
    · obtain rfl := List.mem_singleton.mp hother
      rw [← length_meanings, List.getElem?_concat_length]
  · rw [hmeanings, List.nodup_append]
    refine ⟨h.apart, List.nodup_singleton _, ?_⟩
    rintro meaning hmeaning _ hrow rfl
    obtain rfl := List.mem_singleton.mp hrow
    exact hnew hmeaning
  · rw [hlength, List.range_succ, List.map_append, List.map_append, h.groups]
    congr 1
    · apply List.map_congr_left
      intro number hnumber
      have hne : grouped.length ≠ number := (List.mem_range.mp hnumber).ne'
      rw [members_append, members_singleton, if_neg hne, List.append_nil]
    · rw [List.map_singleton, List.map_singleton, members_append, members_singleton, if_pos rfl,
        h.members_of_length_le le_rfl, List.nil_append]
  · rw [hlength]
    intro k hk
    rcases Nat.lt_succ_iff_lt_or_eq.mp hk with hk | rfl
    · obtain ⟨before, first, rest, rfl, hbefore⟩ := h.inOrder k hk
      exact ⟨before, first, rest ++ [(row, grouped.length)], by simp, hbefore⟩
    · -- all rows before it have the numbers of the groups that there were
      exact ⟨placed, row, [], rfl, fun earlier hearlier => h.lt_length hearlier⟩

theorem place (h : Placed key placed grouped) (row : Record) :
    ∃ number, Placed key (placed ++ [(row, number)]) (Relation.place (key row) row grouped) := by
  rcases place_cases (key row) row grouped with ⟨number, hnumber, hmeanings, hgroups⟩ | ⟨hnew, hplace⟩
  · exact ⟨number, h.join hnumber hmeanings hgroups⟩
  · rw [hplace]
    exact ⟨_, h.begin hnew⟩

end Placed

theorem exists_placed (key : Record → List (Option Scalar)) (rows : List Record) :
    ∃ placed : List (Record × Nat), placed.map (·.1) = rows ∧
      Placed key placed (rows.foldl (fun grouped row => place (key row) row grouped) []) := by
  -- the loop has placed all rows but the last
  induction rows using List.reverseRecOn with
  | nil => exact ⟨[], rfl, .nil⟩
  | append_singleton rows row ih =>
    obtain ⟨placed, hrows, hplaced⟩ := ih
    obtain ⟨number, hstep⟩ := hplaced.place row
    refine ⟨placed ++ [(row, number)], ?_, ?_⟩
    · rw [List.map_append, hrows, List.map_singleton]
    · rw [List.foldl_append]
      exact hstep

theorem groups_eq_foldl (key : Record → List (Option Scalar)) (rows : List Record) :
    groups (rows.map fun row => (key row, row)) =
      (rows.foldl (fun grouped row => place (key row) row grouped) []).map (·.2) := by
  rw [groups, List.foldl_map]

theorem mem_groups (key : Record → List (Option Scalar)) (rows group : List Record) :
    group ∈ groups (rows.map fun row => (key row, row)) ↔
      ∃ row ∈ rows, group = rows.filter fun other => sameGroup (key row) (key other) := by
  obtain ⟨placed, rfl, hplaced⟩ := exists_placed key rows
  rw [groups_eq_foldl, hplaced.groups, List.mem_map]
  constructor
  · rintro ⟨number, hnumber, rfl⟩
    obtain ⟨row, hrow, rfl⟩ := hplaced.exists_of_lt (List.mem_range.mp hnumber)
    exact ⟨row.1, List.mem_map_of_mem hrow, hplaced.members_eq hrow⟩
  · rintro ⟨_, hrow, rfl⟩
    obtain ⟨row, hmem, rfl⟩ := List.mem_map.mp hrow
    exact ⟨row.2, List.mem_range.mpr (hplaced.lt_length hmem), hplaced.members_eq hmem⟩

end Relation

end RecordQuery
