import RecordQuery.Proofs.Relation.Grouping

namespace RecordQuery

namespace AggregateColumn

variable {column : AggregateColumn} {offset : UtcOffset}

def Undated (column : AggregateColumn) (offset : UtcOffset) (record : Record) : Prop :=
  ∃ grouping t, column.role = .groupBy (some grouping) ∧
    column.accessor.read? record = some (.dateTime t) ∧ t.localDate? offset = none

def numbers (column : AggregateColumn) (group : List Record) : List Decimal :=
  (column.presentValues group).filterMap (number? column.accessor.type)

def Exceeds (column : AggregateColumn) (group : List Record) : Prop :=
  match column.role with
  | .apply .sum _ => (column.numbers group).foldlM Decimal.add? .zero = none
  | .apply .avg _ =>
    column.numbers group ≠ [] ∧
      ((column.numbers group).foldlM Decimal.add? .zero).bind
        (fun sum => sum.mean? (column.numbers group).length) = none
  | _ => False

theorem groupValue_failsFor (grouping? : Option DateGrouping) (record : Record) :
    FailsFor (column.groupValue offset grouping? record) fun fault => fault = .overflow ∧
      ∃ grouping t, grouping? = some grouping ∧
        column.accessor.read? record = some (.dateTime t) ∧ t.localDate? offset = none := by
  unfold groupValue
  cases hread : column.accessor.read? record with
  | none => exact fun fault => by simp
  | some value =>
    cases grouping? with
    | none => exact fun fault => by simp
    | some grouping =>
      cases value with
      | dateTime t =>
        cases hdate : t.localDate? offset with
        | none =>
          simp only [hdate]
          exact ⟨rfl, grouping, t, rfl, rfl, hdate⟩
        | some date =>
          simp only [hdate]
          exact fun fault => by simp [hdate]
      | _ => exact fun fault => by simp

theorem total_failsFor (numbers : List Decimal) :
    FailsFor (total numbers) fun fault =>
      fault = .overflow ∧ numbers.foldlM Decimal.add? .zero = none := by
  unfold total
  cases hsum : numbers.foldlM Decimal.add? .zero with
  | none => exact ⟨rfl, rfl⟩
  | some sum => exact fun fault => by simp

theorem sum_failsFor (distinct : Bool) (group : List Record) :
    FailsFor (column.apply .sum distinct group) fun fault =>
      fault = .overflow ∧ (column.numbers group).foldlM Decimal.add? .zero = none := by
  have hnumbers : (column.presentValues group).filterMap (number? column.accessor.type) =
      column.numbers group := rfl
  unfold apply
  dsimp only
  rw [hnumbers]
  cases hnumbers : column.numbers group with
  | nil => exact fun fault => by simp
  | cons first rest =>
    refine ((total_failsFor (first :: rest)).bind fun _ _ => .of_ok ⟨_, rfl⟩).congr fun fault => ?_
    rw [or_false]

theorem avg_failsFor (distinct : Bool) (group : List Record) :
    FailsFor (column.apply .avg distinct group) fun fault => fault = .overflow ∧
      column.numbers group ≠ [] ∧ ((column.numbers group).foldlM Decimal.add? .zero).bind
        (fun sum => sum.mean? (column.numbers group).length) = none := by
  have hnumbers : (column.presentValues group).filterMap (number? column.accessor.type) =
      column.numbers group := rfl
  unfold apply
  dsimp only
  rw [hnumbers]
  cases hnumbers : column.numbers group with
  | nil => exact fun fault => by simp
  | cons first rest =>
    rw [List.isEmpty_cons, if_neg Bool.false_ne_true]
    unfold total
    cases hsum : (first :: rest).foldlM Decimal.add? .zero with
    | none => exact ⟨rfl, List.cons_ne_nil first rest, rfl⟩
    | some sum =>
      rw [ok_bind, Option.bind_some]
      cases hmean : sum.mean? (first :: rest).length with
      | none => exact ⟨rfl, List.cons_ne_nil first rest, rfl⟩
      | some mean => exact fun fault => by simp

theorem apply_failsFor {function : AggregateFunction} {distinct : Bool} (group : List Record)
    (hrole : column.role = .apply function distinct) :
    FailsFor (column.apply function distinct group) fun fault =>
      fault = .overflow ∧ column.Exceeds group := by
  unfold Exceeds
  rw [hrole]
  cases function with
  | sum => exact sum_failsFor distinct group
  | avg => exact avg_failsFor distinct group
  | countColumn =>
    cases distinct <;> exact fun fault => by simp
  | _ => exact fun fault => by simp

theorem value_failsFor (group : List Record) :
    FailsFor (column.value offset group) fun fault => fault = .overflow ∧
      ((∃ record ∈ group.head?, column.Undated offset record) ∨ column.Exceeds group) := by
  unfold value
  cases hrole : column.role with
  | apply function distinct =>
    refine (apply_failsFor group hrole).congr fun fault => ?_
    simp [Undated, hrole]
  | groupBy grouping? =>
    have hexceeds : ¬ column.Exceeds group := by simp [Exceeds, hrole]
    cases group with
    | nil => exact fun fault => by simp [hexceeds]
    | cons record rest =>
      refine (groupValue_failsFor grouping? record).congr fun fault => ?_
      simp [hexceeds, Undated, hrole]

theorem not_exceeds_nil : ¬ column.Exceeds [] := by
  unfold Exceeds
  split <;> simp [numbers, presentValues]

theorem not_undated_of_not_isGrouping (h : Relation.isGrouping column = false)
    (record : Record) : ¬ column.Undated offset record := by
  rintro ⟨grouping, t, hrole, -, -⟩
  simp [Relation.isGrouping, hrole] at h

end AggregateColumn

namespace Relation

variable {offset : UtcOffset} {columns : List AggregateColumn}

/-- A row is grouped by a local day outside of the calendar, or the numbers of the rows in its group
leave the range of decimals. -/
def Overflows (offset : UtcOffset) (columns : List AggregateColumn) (rows : List Record) : Prop :=
  ∃ row ∈ rows, ∃ column ∈ columns, column.Undated offset row ∨
    column.Exceeds (rows.filter fun other => sharesGroup offset columns row other)

variable (offset columns) in
theorem groupKey_failsFor (record : Record) :
    FailsFor (groupKey offset columns record) fun fault => fault = .overflow ∧
      ∃ column ∈ columns, column.Undated offset record := by
  have hcolumns : FailsFor (groupKey offset columns record) fun fault =>
      ∃ column ∈ columns, fault = .overflow ∧ column.Undated offset record := by
    apply FailsFor.filterMapM
    intro column _
    cases hrole : column.role with
    | apply function distinct =>
      exact fun fault => by simp [AggregateColumn.Undated, hrole]
    | groupBy grouping? =>
      refine ((AggregateColumn.groupValue_failsFor grouping? record).bind fun _ _ =>
        .of_ok ⟨_, rfl⟩).congr fun fault => ?_
      simp [AggregateColumn.Undated, hrole]
  exact hcolumns.congr fun fault => by simp only [← exists_and_left, and_left_comm]

theorem groupRow_failsFor (entity : String) (group : List Record) :
    FailsFor (groupRow entity offset columns group) fun fault => fault = .overflow ∧
      ∃ column ∈ columns, (∃ record ∈ group.head?, column.Undated offset record) ∨
        column.Exceeds group := by
  have hcolumns : FailsFor (groupRow entity offset columns group) fun fault =>
      ∃ column ∈ columns, fault = .overflow ∧
        ((∃ record ∈ group.head?, column.Undated offset record) ∨ column.Exceeds group) := by
    apply FailsFor.foldlM
    intro row column _
    refine ((AggregateColumn.value_failsFor group).bind fun _ _ => .of_ok ⟨_, rfl⟩).congr
      fun fault => ?_
    rw [or_false]
  exact hcolumns.congr fun fault => by simp only [← exists_and_left, and_left_comm]

def keyOf (offset : UtcOffset) (columns : List AggregateColumn) (record : Record) :
    List (Option Scalar) :=
  match groupKey offset columns record with
  | .ok key => key
  | .error _ => []

theorem keyed_eq {rows : List Record} {keyed : List (List (Option Scalar) × Record)}
    (h : (rows.mapM fun record => do return (← groupKey offset columns record, record)) =
      .ok keyed) :
    keyed = rows.map (fun row => (keyOf offset columns row, row)) ∧
      ∀ row ∈ rows, groupKey offset columns row = .ok (keyOf offset columns row) := by
  induction rows generalizing keyed with
  | nil =>
    obtain rfl := Except.ok.inj h
    exact ⟨rfl, fun row hrow => by contradiction⟩
  | cons row rest ih =>
    rw [List.mapM_cons] at h
    obtain ⟨_, hfirst, h⟩ := bind_eq_ok_iff.mp h
    obtain ⟨key, hkey, hfirst⟩ := bind_eq_ok_iff.mp hfirst
    obtain rfl := Except.ok.inj hfirst
    obtain ⟨others, hothers, h⟩ := bind_eq_ok_iff.mp h
    obtain rfl := Except.ok.inj h
    obtain ⟨rfl, hrest⟩ := ih hothers
    have hown : keyOf offset columns row = key := by rw [keyOf, hkey]
    refine ⟨by rw [List.map_cons, hown], ?_⟩
    intro other hother
    rcases List.mem_cons.mp hother with rfl | hother
    · rw [hown, hkey]
    · exact hrest other hother

theorem sharesGroup_of_not_isGrouping (h : columns.any isGrouping = false) (a b : Record) :
    sharesGroup offset columns a b = true := by
  rw [List.any_eq_false] at h
  rw [sharesGroup, List.all_eq_true]
  intro column hcolumn
  have hgrouping := h column hcolumn
  unfold AggregateColumn.agrees
  cases hrole : column.role with
  | groupBy grouping? => simp [isGrouping, hrole] at hgrouping
  | apply function distinct => rfl

theorem groupRow_failsFor_overflows (h : columns.any isGrouping = false) (entity : String)
    (rows : List Record) :
    FailsFor (groupRow entity offset columns rows) fun fault =>
      fault = .overflow ∧ Overflows offset columns rows := by
  refine (groupRow_failsFor entity rows).congr fun fault => and_congr_right fun _ => ?_
  have hfilter (row : Record) :
      (rows.filter fun other => sharesGroup offset columns row other) = rows :=
    List.filter_eq_self.mpr fun other _ => sharesGroup_of_not_isGrouping h row other
  have hdated : ∀ column ∈ columns, ∀ record, ¬ column.Undated offset record := by
    intro column hcolumn
    apply AggregateColumn.not_undated_of_not_isGrouping
    simpa using List.any_eq_false.mp h column hcolumn
  constructor
  · rintro ⟨column, hcolumn, ⟨record, -, hundated⟩ | hexceeds⟩
    · exact absurd hundated (hdated column hcolumn record)
    · cases rows with
      | nil => exact absurd hexceeds AggregateColumn.not_exceeds_nil
      | cons row rest =>
        refine ⟨row, List.mem_cons_self, column, hcolumn, .inr ?_⟩
        rw [hfilter]
        exact hexceeds
  · rintro ⟨row, -, column, hcolumn, hundated | hexceeds⟩
    · exact absurd hundated (hdated column hcolumn row)
    · rw [hfilter] at hexceeds
      exact ⟨column, hcolumn, .inr hexceeds⟩

theorem groupRows_failsFor_overflows {rows : List Record}
    (hkeys : ∀ row ∈ rows, groupKey offset columns row = .ok (keyOf offset columns row))
    (entity : String) :
    FailsFor ((groups (rows.map fun row => (keyOf offset columns row, row))).mapM
        (groupRow entity offset columns)) fun fault =>
      fault = .overflow ∧ Overflows offset columns rows := by
  have hdated : ∀ row ∈ rows, ∀ column ∈ columns, ¬ column.Undated offset row := by
    intro row hrow column hcolumn hundated
    have hfails := groupKey_failsFor offset columns row
    rw [hkeys row hrow] at hfails
    exact hfails .overflow ⟨rfl, column, hcolumn, hundated⟩
  have hfilter : ∀ row ∈ rows,
      (rows.filter fun other =>
        sameGroup (keyOf offset columns row) (keyOf offset columns other)) =
      rows.filter fun other => sharesGroup offset columns row other := by
    intro row hrow
    apply List.filter_congr
    intro other hother
    rw [sharesGroup_eq (hkeys row hrow) (hkeys other hother)]
  refine (FailsFor.mapM fun group _ => groupRow_failsFor entity group).congr fun fault => ?_
  constructor
  · rintro ⟨group, hgroup, rfl, column, hcolumn, hfails⟩
    obtain ⟨row, hrow, rfl⟩ := (mem_groups _ rows group).mp hgroup
    rcases hfails with ⟨record, hrecord, hundated⟩ | hexceeds
    · -- the first row of the group is one of the rows, and all of these have keys
      have hmem := (List.mem_filter.mp (List.mem_of_head? hrecord)).1
      exact absurd hundated (hdated record hmem column hcolumn)
    · rw [hfilter row hrow] at hexceeds
      exact ⟨rfl, row, hrow, column, hcolumn, .inr hexceeds⟩
  · rintro ⟨rfl, row, hrow, column, hcolumn, hundated | hexceeds⟩
    · exact absurd hundated (hdated row hrow column hcolumn)
    · refine ⟨_, (mem_groups _ rows _).mpr ⟨row, hrow, rfl⟩, rfl, column, hcolumn, .inr ?_⟩
      rw [hfilter row hrow]
      exact hexceeds

variable (offset columns) in
theorem keyed_failsFor (rows : List Record) :
    FailsFor (rows.mapM fun record => do return (← groupKey offset columns record, record))
      fun fault => fault = .overflow ∧
        ∃ row ∈ rows, ∃ column ∈ columns, column.Undated offset row := by
  have hrows : FailsFor
      (rows.mapM fun record => do return (← groupKey offset columns record, record))
      fun fault => ∃ row ∈ rows, fault = .overflow ∧
        ∃ column ∈ columns, column.Undated offset row := by
    apply FailsFor.mapM
    intro row _
    refine ((groupKey_failsFor offset columns row).bind fun _ _ => .of_ok ⟨_, rfl⟩).congr fun fault => ?_
    rw [or_false]
  exact hrows.congr fun fault => by simp only [← exists_and_left, and_left_comm]

variable (offset columns) in
theorem aggregate_failsFor (relation : Relation) (entity : String) :
    FailsFor (relation.aggregate entity offset columns) fun fault =>
      fault = .overflow ∧ Overflows offset columns relation.records := by
  unfold aggregate
  cases hgrouping : columns.any isGrouping with
  | false =>
    rw [if_neg Bool.false_ne_true]
    refine ((groupRow_failsFor_overflows hgrouping entity relation.records).bind
      fun _ _ => .of_ok ⟨_, rfl⟩).congr fun fault => ?_
    rw [or_false]
  | true =>
    rw [if_pos rfl]
    have hgroups : ∀ keyed,
        (relation.records.mapM fun record => do
          return (← groupKey offset columns record, record)) = .ok keyed →
        FailsFor (do
            let rows ← (groups keyed).mapM (groupRow entity offset columns)
            return relation.withRecords rows)
          fun fault => fault = .overflow ∧ Overflows offset columns relation.records := by
      intro keyed hkeyed
      obtain ⟨rfl, hkeys⟩ := keyed_eq hkeyed
      refine ((groupRows_failsFor_overflows hkeys entity).bind
        fun _ _ => .of_ok ⟨_, rfl⟩).congr fun fault => ?_
      rw [or_false]
    refine ((keyed_failsFor offset columns relation.records).bind hgroups).congr fun fault => ?_
    constructor
    · rintro (⟨rfl, row, hrow, column, hcolumn, hundated⟩ | h)
      · exact ⟨rfl, row, hrow, column, hcolumn, .inl hundated⟩
      · exact h
    · exact .inr

theorem overflow_of_aggregate {relation : Relation} {entity : String} {fault : Error}
    (h : relation.aggregate entity offset columns = .error fault) : fault = .overflow := by
  have hfails := aggregate_failsFor offset columns relation entity
  rw [h] at hfails
  exact hfails.1

theorem exists_aggregate_of_nil {relation : Relation} (h : relation.records = [])
    (entity : String) :
    ∃ result, relation.aggregate entity offset columns = .ok result := by
  have hfails := aggregate_failsFor offset columns relation entity
  cases haggregate : relation.aggregate entity offset columns with
  | ok result => exact ⟨result, rfl⟩
  | error fault =>
    rw [haggregate] at hfails
    obtain ⟨-, row, hrow, -⟩ := hfails
    rw [h] at hrow
    contradiction

end Relation

end RecordQuery
