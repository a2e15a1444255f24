import RecordQuery.Proofs.Relation.Complement
import RecordQuery.Proofs.Relation.Overflows
import RecordQuery.Proofs.Tally

namespace RecordQuery

namespace AggregateColumn

def ShownIn (column : AggregateColumn) (columns : List AggregateColumn) : Prop :=
  ∃ before after, columns = before ++ column :: after ∧ column.output ∉ after.map (·.output)

structure Tallies (column : AggregateColumn) (results : List Record) (tally : Nat → Nat)
    (total : Nat) : Prop where
  shown : ∀ (number : Nat) (row : Record), results[number]? = some row → row.get? column.output =
    some (.aliased column.source column.column (.int (Int64.ofNat (tally number))))
  sum : totalOf ((List.range results.length).map tally) = total

end AggregateColumn

namespace Relation

variable {entity : String} {offset : UtcOffset} {columns : List AggregateColumn}

structure Grouped (entity : String) (offset : UtcOffset) (columns : List AggregateColumn)
    (rows results : List Record) (placed : List (Record × Nat)) : Prop where
  places : placed.map (·.1) = rows
  below : ∀ row ∈ placed, row.2 < results.length
  together : ∀ row ∈ placed, ∀ other ∈ placed,
    row.2 = other.2 ↔ sharesGroup offset columns row.1 other.1 = true
  inOrder : InOrder placed results.length
  shown : ∀ (number : Nat) (row : Record), results[number]? = some row →
    groupRow entity offset columns (members placed number) = .ok row
  count : ∀ (column : AggregateColumn) (distinct : Bool), column.ShownIn columns →
    column.role = .apply .count distinct →
    column.Tallies results (fun number => (members placed number).length) rows.length
  countColumn : ∀ column : AggregateColumn, column.ShownIn columns →
    column.role = .apply .countColumn false →
    column.Tallies results (fun number => (column.presentValues (members placed number)).length)
      (column.presentValues rows).length

theorem get?_foldlM {group : List Record} {row last : Record} {name : String}
    (hname : name ∉ columns.map (·.output))
    (h : columns.foldlM (fun row column => do
      let value ← column.value offset group
      return row.set column.output (.aliased column.source column.column value)) row = .ok last) :
    last.get? name = row.get? name := by
  induction columns generalizing row with
  | nil =>
    obtain rfl := Except.ok.inj h
    rfl
  | cons column rest ih =>
    rw [List.foldlM_cons] at h
    obtain ⟨next, hnext, h⟩ := bind_eq_ok_iff.mp h
    obtain ⟨value, -, hnext⟩ := bind_eq_ok_iff.mp hnext
    obtain rfl := Except.ok.inj hnext
    rw [List.map_cons, List.mem_cons, not_or] at hname
    rw [ih hname.2 h, Record.get?_set, if_neg hname.1]

theorem groupRow_shows {column : AggregateColumn} {group : List Record} {row : Record}
    (hcolumn : column.ShownIn columns) (h : groupRow entity offset columns group = .ok row) :
    ∃ value, column.value offset group = .ok value ∧
      row.get? column.output = some (.aliased column.source column.column value) := by
  obtain ⟨before, after, rfl, hafter⟩ := hcolumn
  unfold groupRow at h
  rw [List.foldlM_append] at h
  obtain ⟨first, -, h⟩ := bind_eq_ok_iff.mp h
  rw [List.foldlM_cons] at h
  obtain ⟨next, hnext, h⟩ := bind_eq_ok_iff.mp h
  obtain ⟨value, hvalue, hnext⟩ := bind_eq_ok_iff.mp hnext
  obtain rfl := Except.ok.inj hnext
  refine ⟨value, hvalue, ?_⟩
  rw [get?_foldlM hafter h, Record.get?_set, if_pos rfl]

theorem totalOf_members {α : Type} {placed : List (Record × Nat)} {count : Nat}
    (hbelow : ∀ row ∈ placed, row.2 < count) (f : Record → Option α) :
    totalOf ((List.range count).map fun number =>
        ((members placed number).filterMap f).length) =
      ((placed.map (·.1)).filterMap f).length := by
  have hsum := totalOf_length_filterMap_key (·.2) (fun row => f row.1) List.nodup_range
    fun row hrow => List.mem_range.mpr (hbelow row hrow)
  simp only [members, List.filterMap_map]
  exact hsum

theorem tallies_of_value {α : Type} {column : AggregateColumn} {results : List Record}
    {placed : List (Record × Nat)} (hcolumn : column.ShownIn columns) (f : Record → Option α)
    (hvalue : ∀ group,
      column.value offset group = .ok (.int (Int64.ofNat (group.filterMap f).length)))
    (hbelow : ∀ row ∈ placed, row.2 < results.length)
    (hshown : ∀ (number : Nat) (row : Record), results[number]? = some row →
      groupRow entity offset columns (members placed number) = .ok row) :
    column.Tallies results (fun number => ((members placed number).filterMap f).length)
      ((placed.map (·.1)).filterMap f).length where
  shown number row hrow := by
    obtain ⟨value, hanswer, hget⟩ := groupRow_shows hcolumn (hshown number row hrow)
    rw [hvalue] at hanswer
    rw [hget, ← Except.ok.inj hanswer]
  sum := totalOf_members hbelow f

theorem Placed.groupRow_members {key : Record → List (Option Scalar)}
    {placed : List (Record × Nat)} {groups : List (List (Option Scalar) × List Record)}
    {results : List Record} (h : Placed key placed groups)
    (hresults : (groups.map (·.2)).mapM (groupRow entity offset columns) = .ok results) :
    results.length = groups.length ∧ ∀ (number : Nat) (row : Record), results[number]? = some row →
      groupRow entity offset columns (members placed number) = .ok row := by
  have hlength := length_of_mapM_eq_ok hresults
  rw [List.length_map] at hlength
  refine ⟨hlength, ?_⟩
  intro number row hrow
  rw [h.groups] at hresults
  obtain ⟨group, hgroup, hanswer⟩ := getElem?_of_mapM_eq_ok hresults hrow
  rw [List.getElem?_map, List.getElem?_range, Option.map_some] at hgroup
  · rw [Option.some.inj hgroup, hanswer]
  · rw [← hlength]
    exact (List.getElem?_eq_some_iff.mp hrow).1

theorem Placed.grouped {rows results : List Record} {placed : List (Record × Nat)}
    {groups : List (List (Option Scalar) × List Record)} (hplaced : placed.map (·.1) = rows)
    (h : Placed (keyOf offset columns) placed groups)
    (hkeys : ∀ row ∈ rows, groupKey offset columns row = .ok (keyOf offset columns row))
    (hresults : (groups.map (·.2)).mapM (groupRow entity offset columns) = .ok results) :
    Grouped entity offset columns rows results placed := by
  subst hplaced
  obtain ⟨hlength, hshown⟩ := h.groupRow_members hresults
  have hbelow : ∀ row ∈ placed, row.2 < results.length := by
    intro row hrow
    rw [hlength]
    exact h.lt_length hrow
  constructor
  · rfl
  · exact hbelow
  · intro row hrow other hother
    rw [sharesGroup_eq (hkeys row.1 (List.mem_map_of_mem hrow))
      (hkeys other.1 (List.mem_map_of_mem hother))]
    exact h.together hrow hother
  · rw [hlength]
    exact h.inOrder
  · exact hshown
  · intro column distinct hcolumn hrole
    have hvalue : ∀ group, column.value offset group =
        .ok (.int (Int64.ofNat (group.filterMap some).length)) := by
      intro group
      rw [AggregateColumn.value, hrole, List.filterMap_some]
      rfl
    have htallies := tallies_of_value hcolumn some hvalue hbelow hshown
    simp only [List.filterMap_some, List.length_map] at htallies ⊢
    exact htallies
  · intro column hcolumn hrole
    apply tallies_of_value hcolumn column.accessor.readPresent? _ hbelow hshown
    intro group
    rw [AggregateColumn.value, hrole]
    rfl

theorem aggregate_grouped {relation result : Relation} (hgrouping : columns.any isGrouping = true)
    (h : relation.aggregate entity offset columns = .ok result) :
    ∃ placed, Grouped entity offset columns relation.records result.records placed := by
  unfold aggregate at h
  rw [hgrouping, if_pos rfl] at h
  obtain ⟨keyed, hkeyed, h⟩ := bind_eq_ok_iff.mp h
  obtain ⟨rows, hrows, h⟩ := bind_eq_ok_iff.mp h
  obtain rfl := Except.ok.inj h
  obtain ⟨rfl, hkeys⟩ := keyed_eq hkeyed
  obtain ⟨placed, hplaced, hgroups⟩ := exists_placed (keyOf offset columns) relation.records
  rw [groups_eq_foldl] at hrows
  exact ⟨placed, hgroups.grouped hplaced hkeys hrows⟩

theorem aggregate_ungrouped {relation result : Relation}
    (hgrouping : columns.any isGrouping = false)
    (h : relation.aggregate entity offset columns = .ok result) :
    ∃ row, result.records = [row] ∧
      groupRow entity offset columns relation.records = .ok row := by
  unfold aggregate at h
  rw [hgrouping, if_neg Bool.false_ne_true] at h
  obtain ⟨row, hrow, h⟩ := bind_eq_ok_iff.mp h
  obtain rfl := Except.ok.inj h
  exact ⟨row, rfl, hrow⟩

end Relation

namespace Context

variable {context : Context} {query plain : Query}

/-- The second query asks for the rows that the first one aggregates, for all of them and one by
one, whatever it shows of them and in whatever order. -/
structure PlainForm (query plain : Query) : Prop where
  entity : plain.entity = query.entity
  criteria : plain.criteria = query.criteria
  links : plain.links = query.links
  whole : Whole plain

theorem run_aggregate {result : QueryResult} (haggregate : query.aggregate = true)
    (hrun : context.run query = .ok result) :
    ∃ plan criteria columns relation aggregated, Plan.ofQuery context.catalog query = .ok plan ∧
      query.criteria.compile context plan.aliases (.root query.entity) = .ok criteria ∧
      context.aggregateColumns query plan = .ok columns ∧
      context.matchingRows plan criteria = .ok relation ∧
      relation.aggregate query.entity context.catalog.offset columns = .ok aggregated ∧
      result = context.paged query aggregated := by
  obtain ⟨plan, criteria, shape, relation, aggregated, hplan, hcriteria, hshape, hrelation,
    haggregated, hresult⟩ := exists_of_run hrun
  unfold Context.shape at hshape
  rw [haggregate, if_pos rfl] at hshape
  obtain ⟨columns, hcolumns, hshape⟩ := bind_eq_ok_iff.mp hshape
  obtain rfl := Except.ok.inj hshape
  exact ⟨plan, criteria, columns, relation, aggregated, hplan, hcriteria, hcolumns, hrelation,
    haggregated, hresult⟩

theorem PlainForm.length_records {plan : Plan} {criteria : Predicate} {relation : Relation}
    {shown : QueryResult} (h : PlainForm query plain)
    (hplan : Plan.ofQuery context.catalog query = .ok plan)
    (hcriteria : query.criteria.compile context plan.aliases (.root query.entity) = .ok criteria)
    (hrelation : context.matchingRows plan criteria = .ok relation)
    (hrun : context.run plain = .ok shown) : shown.records.length = relation.records.length := by
  -- a plan looks at the entity and at the links alone
  have hsame : Plan.ofQuery context.catalog plain = .ok plan := by
    rw [← hplan, Plan.ofQuery, Plan.ofQuery, h.entity, h.links]
  obtain ⟨criteria', relation', keys, projection, hcriteria', hrelation', -, -, rfl⟩ :=
    run_rows hsame hrun h.whole.aggregate
  rw [h.criteria, h.entity, hcriteria] at hcriteria'
  obtain rfl := Except.ok.inj hcriteria'
  rw [hrelation] at hrelation'
  obtain rfl := Except.ok.inj hrelation'
  rw [h.whole.records_paged, Relation.project, Relation.withRecords, List.length_map,
    (Relation.sort_perm keys relation).length_eq]

/-- An aggregation puts each row into one group, by its keys, in the order of the first rows, and
counts each once; without columns to group by there is one row, whether there is anything to
aggregate or not. It has an answer unless a row is grouped by a local day outside of the calendar or
a number leaves its range. The rows that a query aggregates are as many as it shows in its plain
form. -/
theorem aggregate_partition (relation : Relation) (entity : String) (offset : UtcOffset)
    (columns : List AggregateColumn) (context : Context) (query plain : Query) :
    FailsFor (relation.aggregate entity offset columns)
        (fun fault => fault = .overflow ∧ Relation.Overflows offset columns relation.records) ∧
      (columns.any Relation.isGrouping = true → ∀ result,
        relation.aggregate entity offset columns = .ok result → ∃ placed,
          Relation.Grouped entity offset columns relation.records result.records placed) ∧
      (columns.any Relation.isGrouping = false → ∀ result,
        relation.aggregate entity offset columns = .ok result → ∃ row,
          result.records = [row] ∧
            Relation.groupRow entity offset columns relation.records = .ok row) ∧
      (columns.any Relation.isGrouping = false → relation.records = [] → ∃ result row,
        relation.aggregate entity offset columns = .ok result ∧ result.records = [row]) ∧
      (query.aggregate = true → PlainForm query plain → ∀ result shown,
        context.run query = .ok result → context.run plain = .ok shown →
        ∃ plan criteria applied rows aggregated,
          Plan.ofQuery context.catalog query = .ok plan ∧
          query.criteria.compile context plan.aliases (.root query.entity) = .ok criteria ∧
          context.aggregateColumns query plan = .ok applied ∧
          context.matchingRows plan criteria = .ok rows ∧
          rows.aggregate query.entity context.catalog.offset applied = .ok aggregated ∧
          result = context.paged query aggregated ∧
          shown.records.length = rows.records.length) := by
  refine ⟨Relation.aggregate_failsFor offset columns relation entity,
    fun hgrouping result => Relation.aggregate_grouped hgrouping,
    fun hgrouping result => Relation.aggregate_ungrouped hgrouping, ?_, ?_⟩
  · intro hgrouping hnil
    obtain ⟨result, hresult⟩ := Relation.exists_aggregate_of_nil hnil entity
    obtain ⟨row, hrow, -⟩ := Relation.aggregate_ungrouped hgrouping hresult
    exact ⟨result, row, hresult, hrow⟩
  · intro haggregate hform result shown hrun hplain
    obtain ⟨plan, criteria, applied, rows, aggregated, hplan, hcriteria, hcolumns, hrows,
      haggregated, hresult⟩ := run_aggregate haggregate hrun
    exact ⟨plan, criteria, applied, rows, aggregated, hplan, hcriteria, hcolumns, hrows,
      haggregated, hresult, hform.length_records hplan hcriteria hrows hplain⟩

def regionalAccounts : Context where
  store := Store.ofList [⟨"account", .ofNat 1, .ofList [("region", .int 7)]⟩,
    ⟨"account", .ofNat 2, .ofList [("region", .int 8)]⟩,
    ⟨"account", .ofNat 3, .ofList [("region", .int 7)]⟩]
  catalog := { Catalog.empty with
    entities := [(EntityMetadata.ofName "account").withCode "region" .integer] }
  caller := default
  now := default
  pageSize := 0

def accountsByRegion : Query :=
  { Query.ofEntity "account" with
    columns := .columns [⟨"region", some "region", none, true, none, false⟩,
      ⟨"accountid", some "accounts", some .count, false, none, false⟩]
    aggregate := true }

def regionColumns : List AggregateColumn :=
  [⟨"region", "account", "region", ⟨"region", .int, none⟩, .groupBy none⟩,
    ⟨"accounts", "account", "accountid", ⟨"accountid", .uuid, none⟩, .apply .count false⟩]

theorem aggregate_partition_regions :
    ∃ (shown : QueryResult) (relation aggregated : Relation) (placed : List (Record × Nat)),
      regionalAccounts.run (Query.ofEntity "account") = .ok shown ∧ shown.records.length = 3 ∧
        relation.records.length = 3 ∧
        relation.aggregate "account" regionalAccounts.catalog.offset regionColumns =
          .ok aggregated ∧
        regionalAccounts.run accountsByRegion =
          .ok (regionalAccounts.paged accountsByRegion aggregated) ∧
        Relation.Grouped "account" regionalAccounts.catalog.offset regionColumns relation.records
          aggregated.records placed := by
  obtain ⟨result, hrun⟩ : ∃ result, regionalAccounts.run accountsByRegion = .ok result := ⟨_, rfl⟩
  obtain ⟨shown, hplain, hthree⟩ : ∃ shown,
      regionalAccounts.run (Query.ofEntity "account") = .ok shown ∧ shown.records.length = 3 :=
    ⟨_, rfl, rfl⟩
  obtain ⟨-, -, -, -, hquery⟩ := aggregate_partition .empty "account"
    regionalAccounts.catalog.offset regionColumns regionalAccounts accountsByRegion
    (Query.ofEntity "account")
  obtain ⟨plan, criteria, columns, relation, aggregated, hplan, -, hcolumns, -, haggregated, rfl,
    hlength⟩ := hquery rfl ⟨rfl, rfl, rfl, ⟨rfl, rfl, rfl, rfl⟩⟩ result shown hrun hplain
  obtain rfl : (⟨"account", "accountid", []⟩ : Plan) = plan := Except.ok.inj hplan
  obtain rfl : regionColumns = columns := Except.ok.inj hcolumns
  obtain ⟨-, hgroups, -⟩ := aggregate_partition relation "account"
    regionalAccounts.catalog.offset regionColumns regionalAccounts accountsByRegion
    (Query.ofEntity "account")
  obtain ⟨placed, hgrouped⟩ := hgroups rfl aggregated haggregated
  exact ⟨shown, relation, aggregated, placed, hplain, hthree, hlength.symm.trans hthree,
    haggregated, hrun, hgrouped⟩

def accountsByDay : List AggregateColumn :=
  [⟨"day", "account", "since", Condition.sinceAccessor, .groupBy (some .day)⟩]

theorem exists_aggregate_not_grouped :
    ¬ ∀ (relation : Relation) (entity : String) (offset : UtcOffset)
      (columns : List AggregateColumn), columns.any Relation.isGrouping = true →
      ∃ result placed, relation.aggregate entity offset columns = .ok result ∧
        Relation.Grouped entity offset columns relation.records result.records placed := by
  intro h
  obtain ⟨result, placed, hresult, -⟩ := h (.ofRecords [Condition.accountSince .least]) "account"
    Condition.westward.catalog.offset accountsByDay rfl
  have hfault : (Relation.ofRecords [Condition.accountSince .least]).aggregate "account"
      Condition.westward.catalog.offset accountsByDay = .error .overflow := rfl
  rw [hfault] at hresult
  contradiction

end Context

end RecordQuery
