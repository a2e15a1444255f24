import RecordQuery.Proofs.Predicate.Presence
import RecordQuery.Proofs.Relation.Finding
import RecordQuery.Proofs.Relation.QueryRows
import RecordQuery.Proofs.Relation.Showing
import RecordQuery.Proofs.Relation.Sorting

/-!
What a column means in the parts of a query. Filters, orders and aggregates read it; a projection
shows, and a link joins by, what is held under its key. The two differ where the name of a reference
is read that is not held under a key of its own.
-/

namespace RecordQuery

namespace Accessor

variable (accessor : Accessor) (record : Record)

def ReadsOwn : Prop :=
  (record.get? accessor.key).isSome = true ∨
    ∀ value, accessor.base? record = some value → value.reference? = none ∧ value.isNull = false

def JoinsOwn : Prop :=
  (record.get? accessor.key).isSome = true ∨
    ∀ value, accessor.base? record = some value →
      ∀ target, value.reference? = some target → target.name? = none

variable {accessor record}

theorem read?_of_get?_eq_none (h : record.get? accessor.key = none) :
    accessor.read? record = (accessor.base? record).bind referenceName? := by
  rw [read?_eq, Record.getUnwrapped?, h, Option.map_none, Option.none_or]

theorem referenceName?_eq_none_iff (value : Value) :
    referenceName? value = none ↔ value.reference? = none ∧ value.isNull = false := by
  unfold referenceName?
  split
  · split <;> simp [Value.reference?]
  · simp [Value.isNull]
  · rename_i hreference hnull
    cases value <;> simp_all [Value.reference?, Value.isNull]

theorem key?_referenceName?_eq_none_iff (value : Value) :
    (referenceName? value).bind Value.key? = none ↔
      ∀ target, value.reference? = some target → target.name? = none := by
  unfold referenceName?
  split
  · rename_i target
    split
    · rename_i name hname
      have hkey : (Value.text name).key? ≠ none := by
        simp only [Value.key?, Value.unwrap]
        split <;> simp
      simp [Value.reference?, hname, hkey]
    · rename_i hname
      simp [Value.reference?, Value.key?, Value.unwrap, hname]
  · simp [Value.reference?, Value.key?, Value.unwrap]
  · rename_i hreference hnull
    cases value <;> simp_all [Value.reference?]

theorem getUnwrapped?_eq_read?_iff :
    record.getUnwrapped? accessor.key = accessor.read? record ↔ accessor.ReadsOwn record := by
  unfold ReadsOwn
  cases hvalue : record.get? accessor.key with
  | some value => simp [read?, Record.getUnwrapped?, hvalue]
  | none =>
    rw [read?_of_get?_eq_none hvalue, Record.getUnwrapped?, hvalue]
    cases accessor.base? record with
    | none => simp
    | some base =>
      rw [Option.map_none, Option.bind_some, eq_comm, referenceName?_eq_none_iff]
      simp

theorem keyAt?_eq_read?_iff :
    record.keyAt? accessor.key = (accessor.read? record).bind Value.key? ↔
      accessor.JoinsOwn record := by
  unfold JoinsOwn
  cases hvalue : record.get? accessor.key with
  | some value => simp [read?, Record.keyAt?, Record.getUnwrapped?, hvalue, Value.key?_unwrap]
  | none =>
    rw [read?_of_get?_eq_none hvalue, Record.keyAt?, hvalue]
    cases accessor.base? record with
    | none => simp
    | some base =>
      rw [Option.bind_none, Option.bind_some, eq_comm, key?_referenceName?_eq_none_iff]
      simp

end Accessor

namespace Relation

theorem mem_of_mem_slice {relation : Relation} {limit offset : Nat} {row : Record}
    (h : row ∈ (relation.slice limit offset).records) : row ∈ relation.records :=
  List.mem_of_mem_take (List.mem_of_mem_drop h)

end Relation

inductive Query.Lists (query : Query) (plan : Plan) : Scope → Column → Prop
  | own {column : Column} (h : column ∈ query.columns.explicit) :
    Lists query plan (.root query.entity) column
  | linked {planned : PlannedLink} {column : Column} (hlink : planned ∈ plan.mergedLinks)
    (h : column ∈ planned.link.columns.explicit) :
    Lists query plan (.link planned.link.entity planned.aliasName) column

def Scope.output (scope : Scope) (column : Column) : String :=
  column.alias?.getD (Accessor.qualifiedBy scope.alias? column.name)

theorem Scope.accessor_key {scope : Scope} {catalog : Catalog} {name : String} {accessor : Accessor}
    (h : scope.accessor catalog name = .ok accessor) :
    accessor.key = Accessor.qualifiedBy scope.alias? name := by
  obtain ⟨resolved, hresolved, rfl⟩ := map_eq_ok_iff.mp h
  rw [Accessor.ofColumn, Catalog.resolve_name hresolved]

namespace Context

open Projection (Part)

variable {context : Context} {query : Query} {plan : Plan}

theorem selection_lists {columns : ColumnSet} {entity : String} {selection : Selection}
    (h : context.selection columns entity = .ok selection) {column : Column}
    (hcolumn : column ∈ columns.explicit) :
    ∃ listed, selection = .columns listed ∧
      (⟨column.name, column.alias?⟩ : ProjectedColumn) ∈ listed := by
  cases columns with
  | all => contradiction
  | none => contradiction
  | columns all =>
    obtain ⟨shown, hshown, h⟩ := bind_eq_ok_iff.mp h
    obtain rfl := Except.ok.inj h
    obtain ⟨item, hmem, hitem⟩ := exists_of_mapM_eq_ok hshown hcolumn
    obtain ⟨resolved, -, hitem⟩ := bind_eq_ok_iff.mp hitem
    obtain rfl := Except.ok.inj hitem
    exact ⟨shown, rfl, hmem⟩

theorem projection_lists {projection : Projection}
    (h : context.projection query plan = .ok projection) {scope : Scope} {column : Column}
    (hlists : query.Lists plan scope column) :
    ∃ part ∈ projection.parts, part.source? (scope.output column) =
      some (Accessor.qualifiedBy scope.alias? column.name) := by
  obtain ⟨root, hroot, h⟩ := bind_eq_ok_iff.mp h
  obtain ⟨links, hlinks, h⟩ := bind_eq_ok_iff.mp h
  obtain rfl := Except.ok.inj h
  cases hlists with
  | own hcolumn =>
    obtain ⟨listed, rfl, hmem⟩ := selection_lists hroot hcolumn
    refine ⟨.own query.entity ⟨column.name, column.alias?⟩, ?_, ?_⟩
    · exact List.mem_append_left _ (List.mem_map_of_mem hmem)
    · exact if_pos rfl
  | @linked planned column hlink hcolumn =>
    obtain ⟨link, hmem, hlinked⟩ := exists_of_mapM_eq_ok hlinks hlink
    obtain ⟨selection, hselection, hlinked⟩ := bind_eq_ok_iff.mp hlinked
    obtain rfl := Except.ok.inj hlinked
    obtain ⟨listed, rfl, hcolumn⟩ := selection_lists hselection hcolumn
    refine ⟨.linked planned.aliasName ⟨column.name, column.alias?⟩, ?_, ?_⟩
    · apply List.mem_append_right
      rw [List.mem_flatMap]
      exact ⟨_, hmem, List.mem_map_of_mem hcolumn⟩
    · exact if_pos rfl

theorem project_eq_read?_iff {projection : Projection} {scope : Scope} {column : Column}
    {accessor : Accessor} {row : Record}
    (hprojection : context.projection query plan = .ok projection)
    (hlists : query.Lists plan scope column)
    (haccessor : scope.accessor context.catalog column.name = .ok accessor)
    (hsole : Projection.Sole row projection.parts (scope.output column) accessor.key) :
    (projection.project row).getUnwrapped? (scope.output column) = accessor.read? row ↔
      accessor.ReadsOwn row := by
  obtain ⟨part, hmem, hpart⟩ := projection_lists hprojection hlists
  rw [← Scope.accessor_key haccessor] at hpart
  rw [Projection.getUnwrapped?_project hsole hmem hpart, Accessor.getUnwrapped?_eq_read?_iff]

theorem mem_of_mem_page {paging : Paging} {relation : Relation} {row : Record}
    (h : row ∈ (context.page paging relation).1.records) : row ∈ relation.records := by
  unfold page at h
  split at h
  · exact Relation.mem_of_mem_slice h
  · exact h

theorem mem_of_mem_paged {relation : Relation} {row : Record}
    (h : row ∈ (context.paged query relation).records) : row ∈ relation.records := by
  have hfirst := mem_of_mem_page h
  have hdistinct : row ∈ (if query.distinct then relation.distinct else relation).records := by
    split at hfirst
    · exact Relation.mem_of_mem_slice hfirst
    · exact hfirst
  split at hdistinct
  · exact (Relation.firsts_sublist _ _).subset hdistinct
  · exact hdistinct

/-- The rows of an answer show each listed column as filters and orders read it, and links join by
what is read, exactly where what is read is held under the key of the column. It is not where the
name of a reference is read in its place. -/
theorem run_column_iff {result : QueryResult} (hrun : context.run query = .ok result)
    (haggregate : query.aggregate = false) :
    (∀ shown ∈ result.records, ∃ plan criteria relation projection,
      Plan.ofQuery context.catalog query = .ok plan ∧
      query.criteria.compile context plan.aliases (.root query.entity) = .ok criteria ∧
      context.matchingRows plan criteria = .ok relation ∧
      context.projection query plan = .ok projection ∧
      ∃ row ∈ relation.records, shown = projection.project row ∧
        ∀ scope column accessor, query.Lists plan scope column →
          scope.accessor context.catalog column.name = .ok accessor →
          Projection.Sole row projection.parts (scope.output column) accessor.key →
          (shown.getUnwrapped? (scope.output column) = accessor.read? row ↔
            accessor.ReadsOwn row)) ∧
    ∀ (parent : Scope) (link : Link) (source target : Accessor) (left right : Record),
      parent.accessor context.catalog link.source = .ok source →
      (Scope.root link.entity).accessor context.catalog link.target = .ok target →
      (left.keyAt? (Accessor.qualifiedBy parent.alias? link.source) =
          (source.read? left).bind Value.key? ↔ source.JoinsOwn left) ∧
        (right.keyAt? link.target = (target.read? right).bind Value.key? ↔
          target.JoinsOwn right) := by
  constructor
  · intro shown hshown
    obtain ⟨plan, hplan, -⟩ := bind_eq_ok_iff.mp hrun
    obtain ⟨criteria, relation, keys, projection, hcriteria, hrelation, hkeys, hprojection, rfl⟩ :=
      run_rows hplan hrun haggregate
    refine ⟨plan, criteria, relation, projection, hplan, hcriteria, hrelation, hprojection, ?_⟩
    obtain ⟨row, hrow, rfl⟩ := List.mem_map.mp (mem_of_mem_paged hshown)
    refine ⟨row, (Relation.sort_perm keys relation).subset hrow, rfl, ?_⟩
    intro scope column accessor hlists haccessor hsole
    exact project_eq_read?_iff hprojection hlists haccessor hsole
  · intro parent link source target left right hsource htarget
    have hright : target.key = link.target := Scope.accessor_key htarget
    rw [← Scope.accessor_key hsource, ← hright]
    exact ⟨Accessor.keyAt?_eq_read?_iff, Accessor.keyAt?_eq_read?_iff⟩

def accountOfAnn : Record :=
  ⟨"account", .ofNat 1, .ofList [("accountid", .uuid (.ofNat 1)), ("name", .text "north"),
    ("owner", .reference ⟨"user", .ofNat 2, some "ann"⟩)]⟩

def accountsOfAnn : Context where
  store := Store.ofList [accountOfAnn]
  catalog := { Catalog.empty with
    entities := [((EntityMetadata.ofName "account").withCode "name" .string).withCode "owner" .lookup,
      (EntityMetadata.ofName "user").withCode "fullname" .string] }
  caller := default
  now := .greatest
  pageSize := 0

def accountsWith (name : String) : Query :=
  { Query.ofEntity "account" with columns := .columns [.named name] }

def shownWith (name : String) : Projection :=
  ⟨"account", "accountid", .columns [⟨name, none⟩], []⟩

def toUser (name : String) : Link :=
  ⟨name, "user", "fullname", .inner, none, .all, .all, [], []⟩

theorem shownWith_sole (name : String) (row : Record) :
    Projection.Sole row (shownWith name).parts name name := by
  intro part hpart other hother
  obtain rfl := List.mem_singleton.mp hpart
  rw [Projection.Part.source?, Option.getD_none, if_pos rfl] at hother
  exact Or.inl (Option.some.inj hother).symm

theorem run_column_iff_name :
    ∃ shown row,
      accountsOfAnn.run (accountsWith "name") = .ok ⟨[shown], none, false⟩ ∧
      shown.getUnwrapped? "name" = (⟨"name", .text, none⟩ : Accessor).read? row ∧
      accountOfAnn.keyAt? "name" =
        ((⟨"name", .text, none⟩ : Accessor).read? accountOfAnn).bind Value.key? := by
  have hrun : accountsOfAnn.run (accountsWith "name") =
      .ok ⟨[(shownWith "name").project accountOfAnn], none, false⟩ := rfl
  obtain ⟨hrows, hkeys⟩ := run_column_iff hrun rfl
  obtain ⟨plan, criteria, relation, projection, hplan, -, -, hprojection, row, -, hshown, hread⟩ :=
    hrows _ (List.mem_singleton.mpr rfl)
  obtain rfl := Except.ok.inj hplan
  obtain rfl : shownWith "name" = projection := Except.ok.inj hprojection
  refine ⟨_, row, hrun, ?_, ?_⟩
  · apply (hread (.root "account") (.named "name") _ (.own List.mem_cons_self) rfl
      (shownWith_sole "name" row)).mpr
    exact Or.inr fun value hvalue => by contradiction
  · exact (hkeys (.root "account") (toUser "name") ⟨"name", .text, none⟩ ⟨"fullname", .text, none⟩
      accountOfAnn accountOfAnn rfl rfl).1.mpr (Or.inl rfl)

theorem exists_column_differs :
    (¬ ∀ (context : Context) (query : Query) (plan : Plan) (projection : Projection) (scope : Scope)
        (column : Column) (accessor : Accessor) (row : Record),
      Plan.ofQuery context.catalog query = .ok plan →
      context.projection query plan = .ok projection → query.Lists plan scope column →
      scope.accessor context.catalog column.name = .ok accessor →
      Projection.Sole row projection.parts (scope.output column) accessor.key →
      (projection.project row).getUnwrapped? (scope.output column) = accessor.read? row) ∧
    ¬ ∀ (context : Context) (parent : Scope) (link : Link) (source : Accessor) (left : Record),
      parent.accessor context.catalog link.source = .ok source →
      left.keyAt? (Accessor.qualifiedBy parent.alias? link.source) =
        (source.read? left).bind Value.key? := by
  constructor
  · intro h
    have hshown := h accountsOfAnn (accountsWith "ownername") ⟨"account", "accountid", []⟩
      (shownWith "ownername") (.root "account") (.named "ownername")
      ⟨"ownername", .text, some "owner"⟩ accountOfAnn rfl rfl (.own List.mem_cons_self) rfl
      (shownWith_sole "ownername" accountOfAnn)
    have hnone : ((shownWith "ownername").project accountOfAnn).getUnwrapped?
        ((Scope.root "account").output (.named "ownername")) = none := rfl
    have hread : (⟨"ownername", .text, some "owner"⟩ : Accessor).read? accountOfAnn =
        some (.text "ann") := rfl
    exact absurd (hread.symm.trans (hshown.symm.trans hnone)) (by simp)
  · intro h
    have hkey := h accountsOfAnn (.root "account") (toUser "ownername")
      ⟨"ownername", .text, some "owner"⟩ accountOfAnn rfl
    have hnone : accountOfAnn.keyAt? "ownername" = none := rfl
    have hsome : (((⟨"ownername", .text, some "owner"⟩ : Accessor).read? accountOfAnn).bind
        Value.key?).isSome = true := by decide
    rw [hkey.symm.trans hnone] at hsome
    contradiction

end Context

end RecordQuery
