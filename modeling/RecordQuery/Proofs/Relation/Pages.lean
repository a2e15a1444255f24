import RecordQuery.Evaluation
import RecordQuery.Proofs.Outcome

namespace RecordQuery

theorem Relation.slice_records {relation : Relation} (h : relation.size < limit64)
    (limit offset : Nat) :
    (relation.slice limit offset).records = (relation.records.drop offset).take limit := by
  have hsize : relation.size = relation.records.length := rfl
  simp only [slice, withRecords, min_saturatingAdd h]
  rw [hsize, List.drop_take]
  by_cases hoffset : offset ≤ relation.records.length
  · rw [Nat.min_eq_left hoffset, List.take_eq_take_iff, List.length_drop]
    omega
  · have hstart : min offset relation.records.length = relation.records.length := by omega
    rw [hstart, List.drop_length, List.drop_of_length_le (by omega), List.take_nil, List.take_nil]

namespace Paging

def number (paging : Paging) : Nat := max 1 (paging.page?.getD 1)

def size (paging : Paging) (pageSize : Nat) : Nat := paging.count?.getD pageSize

end Paging

namespace Query

def withPaging (query : Query) (paging : Paging) : Query := { query with paging }

def atPage (query : Query) (number : Nat) : Query :=
  query.withPaging { query.paging with page? := some number }

end Query

def QueryResult.page (whole : QueryResult) (size number : Nat) (totalCount : Bool) :
    QueryResult where
  records := (whole.records.drop ((number - 1) * size)).take size
  totalCount? := if totalCount then some whole.records.length else none
  moreRecords := decide (number * size < whole.records.length)

namespace Context

variable {context : Context} {query : Query} {whole : QueryResult}

theorem page_eq (context : Context) (relation : Relation) (h : relation.size < limit64)
    {paging : Paging} (hrequested : paging.isRequested = true) :
    (context.page paging relation).1.records =
        (relation.records.drop ((paging.number - 1) * paging.size context.pageSize)).take
          (paging.size context.pageSize) ∧
      (context.page paging relation).2 =
        decide (paging.number * paging.size context.pageSize < relation.size) := by
  have hpage : context.page paging relation =
      (relation.slice (paging.size context.pageSize)
          (saturatingMul (paging.number - 1) (paging.size context.pageSize)),
        decide (saturatingAdd (saturatingMul (paging.number - 1) (paging.size context.pageSize))
          (paging.size context.pageSize) < relation.size)) := by
    unfold page
    rw [if_pos hrequested]
    rfl
  have hpos : 1 ≤ paging.number := Nat.le_max_left _ _
  have hnext : paging.number * paging.size context.pageSize =
      (paging.number - 1) * paging.size context.pageSize + paging.size context.pageSize := by
    rw [← Nat.succ_mul, Nat.succ_eq_add_one, Nat.sub_add_cancel hpos]
  have hoffset := min_saturatingMul (m := paging.number - 1) (n := paging.size context.pageSize) h
  rw [hpage, Relation.slice_records h]
  constructor
  · congr 1
    rw [List.drop_eq_drop_iff]
    exact hoffset
  · rw [hnext, decide_eq_decide, saturatingAdd_lt_iff h]
    omega

theorem exists_rows (context : Context) (query : Query) : ∃ rows : Except Error Relation,
    ∀ paging, context.run (query.withPaging paging) =
      rows.map (context.paged (query.withPaging paging)) := by
  refine ⟨do
    let plan ← Plan.ofQuery context.catalog query
    let criteria ← query.criteria.compile context plan.aliases (.root query.entity)
    let shape ← context.shape query plan
    let relation ← context.matchingRows plan criteria
    context.shaped query relation shape, fun paging => ?_⟩
  simp only [run, bind_map, bind_pure_comp]
  rfl

theorem exists_first (context : Context) (query : Query) (relation : Relation) :
    ∃ first : Relation, ∀ paging, context.paged (query.withPaging paging) relation =
      ⟨(context.page paging first).1.records,
        if paging.totalCount then some first.size else none, (context.page paging first).2⟩ := by
  cases htop : query.top? with
  | none =>
    refine ⟨if query.distinct then relation.distinct else relation, fun paging => ?_⟩
    simp only [paged, Query.withPaging, htop]
  | some top =>
    refine ⟨(if query.distinct then relation.distinct else relation).slice top 0, fun paging => ?_⟩
    simp only [paged, Query.withPaging, htop]

theorem run_eq_page (hrequested : query.paging.isRequested = true)
    (hwhole : context.run (query.withPaging .whole) = .ok whole)
    (hlength : whole.records.length < limit64) :
    context.run query = .ok (whole.page (query.paging.size context.pageSize) query.paging.number
      query.paging.totalCount) := by
  obtain ⟨rows, hrows⟩ := exists_rows context query
  rw [hrows] at hwhole
  obtain ⟨relation, hrelation, rfl⟩ := map_eq_ok_iff.mp hwhole
  obtain ⟨first, hfirst⟩ := exists_first context query relation
  have hall : (context.paged (query.withPaging .whole) relation).records = first.records :=
    congrArg QueryResult.records (hfirst .whole)
  rw [hall] at hlength
  obtain ⟨hrecords, hmore⟩ := page_eq context first hlength hrequested
  have hrun : context.run query = .ok (context.paged query relation) := by
    have hquery := hrows query.paging
    rwa [hrelation] at hquery
  have hpaged := hfirst query.paging
  rw [hrecords, hmore] at hpaged
  rw [hrun, QueryResult.page, hall]
  exact congrArg Except.ok hpaged

inductive Reads (context : Context) (query : Query) : Nat → List Record → Prop
  | last {number : Nat} {result : QueryResult}
    (hrun : context.run (query.atPage number) = .ok result)
    (hmore : result.moreRecords = false) : Reads context query number result.records
  | next {number : Nat} {result : QueryResult} {rest : List Record}
    (hrun : context.run (query.atPage number) = .ok result) (hmore : result.moreRecords = true)
    (hnumber : number + 1 < limit64) (hrest : Reads context query (number + 1) rest) :
    Reads context query number (result.records ++ rest)

section Reading

variable {size : Nat}

theorem run_atPage (hwhole : context.run (query.withPaging .whole) = .ok whole)
    (hlength : whole.records.length < limit64) (number : Nat) :
    context.run (query.atPage (number + 1)) = .ok (whole.page
      (query.paging.size context.pageSize) (number + 1) query.paging.totalCount) := by
  have hrequested : (query.atPage (number + 1)).paging.isRequested = true := Bool.or_true _
  have hrun := run_eq_page hrequested hwhole hlength
  have hnumber : (query.atPage (number + 1)).paging.number = number + 1 :=
    Nat.max_eq_right (Nat.succ_le_succ (Nat.zero_le number))
  rw [hnumber] at hrun
  exact hrun

theorem page_append_drop (whole : QueryResult) (size number : Nat) (totalCount : Bool) :
    (whole.page size (number + 1) totalCount).records ++ whole.records.drop ((number + 1) * size) =
      whole.records.drop (number * size) := by
  rw [Nat.succ_mul, ← List.drop_drop]
  exact List.take_append_drop size _

theorem Reads.eq_drop (hwhole : context.run (query.withPaging .whole) = .ok whole)
    (hlength : whole.records.length < limit64) {number : Nat} {records : List Record}
    (h : context.Reads query (number + 1) records) :
    records = whole.records.drop (number * query.paging.size context.pageSize) := by
  generalize hpage : number + 1 = page at h
  induction h generalizing number with
  | last hrun hmore =>
    subst hpage
    rw [run_atPage hwhole hlength] at hrun
    obtain rfl := Except.ok.inj hrun
    have hend := of_decide_eq_false hmore
    rw [← page_append_drop whole _ number query.paging.totalCount,
      List.drop_of_length_le (Nat.not_lt.mp hend), List.append_nil]
  | next hrun hmore hnumber hrest ih =>
    subst hpage
    rw [run_atPage hwhole hlength] at hrun
    obtain rfl := Except.ok.inj hrun
    rw [ih rfl, page_append_drop]

theorem reads_drop (hsize : 1 ≤ query.paging.size context.pageSize)
    (hwhole : context.run (query.withPaging .whole) = .ok whole)
    (hlength : whole.records.length < limit64) (number : Nat) :
    context.Reads query (number + 1)
      (whole.records.drop (number * query.paging.size context.pageSize)) := by
  -- by the number of records behind the page, which gets less with each page
  induction hleft : whole.records.length - number * query.paging.size context.pageSize
    using Nat.strongRecOn generalizing number with
  | _ left ih =>
    have hrun := run_atPage hwhole hlength number
    have hnext := Nat.add_one_mul number (query.paging.size context.pageSize)
    rw [← page_append_drop whole _ number query.paging.totalCount]
    by_cases hmore : (number + 1) * query.paging.size context.pageSize < whole.records.length
    · have hnumber : number + 1 ≤ (number + 1) * query.paging.size context.pageSize :=
        Nat.le_mul_of_pos_right _ hsize
      apply Reads.next hrun (decide_eq_true hmore) (by omega)
      exact ih _ (by omega) (number + 1) rfl
    · rw [List.drop_of_length_le (Nat.not_lt.mp hmore), List.append_nil]
      exact Reads.last hrun (decide_eq_false hmore)

end Reading

/-- Pages tile the answer without pages. A query for a page fails as the query without pages does;
else it gives the stretch of the answer that the page stands for, says whether the answer goes on
behind it, and counts all of its records. Reading from the first page on ends, and gives the whole
answer. (The records of an answer are counted in 64 bits.) -/
theorem run_pages (context : Context) {query : Query} (hrequested : query.paging.isRequested = true)
    (hsize : 1 ≤ query.paging.size context.pageSize) :
    (∀ fault, context.run (query.withPaging .whole) = .error fault →
      context.run query = .error fault) ∧
    ∀ whole, context.run (query.withPaging .whole) = .ok whole →
      whole.records.length < limit64 →
      context.run query = .ok (whole.page (query.paging.size context.pageSize)
        query.paging.number query.paging.totalCount) ∧
      ∀ records, context.Reads query 1 records ↔ records = whole.records := by
  constructor
  · intro fault hfault
    obtain ⟨rows, hrows⟩ := exists_rows context query
    rw [hrows, map_eq_error_iff] at hfault
    have hquery := hrows query.paging
    rw [hfault] at hquery
    exact hquery
  · intro whole hwhole hlength
    refine ⟨run_eq_page hrequested hwhole hlength, fun records => ⟨fun hreads => ?_, ?_⟩⟩
    · have hdrop : records = whole.records.drop (0 * query.paging.size context.pageSize) :=
        hreads.eq_drop hwhole hlength
      rwa [Nat.zero_mul, List.drop_zero] at hdrop
    · rintro rfl
      have hreads := reads_drop hsize hwhole hlength 0
      rwa [Nat.zero_mul, List.drop_zero] at hreads

def numberedAccount (n : Nat) : Record :=
  ⟨"account", .ofNat n, .ofList [("accountid", .uuid (.ofNat n))]⟩

def threeAccounts : Context where
  store := Store.ofList [numberedAccount 1, numberedAccount 2, numberedAccount 3]
  catalog := { Catalog.empty with entities := [EntityMetadata.ofName "account"] }
  caller := default
  now := .greatest
  pageSize := 2

def secondAccounts : Query := { Query.ofEntity "account" with paging := ⟨none, some 2, true⟩ }

theorem run_pages_second :
    threeAccounts.run secondAccounts = .ok ⟨[numberedAccount 3], some 3, false⟩ ∧
      threeAccounts.Reads secondAccounts 1
        [numberedAccount 1, numberedAccount 2, numberedAccount 3] := by
  have hwhole : threeAccounts.run (secondAccounts.withPaging .whole) =
      .ok ⟨[numberedAccount 1, numberedAccount 2, numberedAccount 3], none, false⟩ := rfl
  have hrequested : secondAccounts.paging.isRequested = true := rfl
  obtain ⟨hpage, hreads⟩ := (run_pages threeAccounts hrequested (by decide)).2 _ hwhole (by decide)
  exact ⟨hpage, (hreads _).mpr rfl⟩

end Context

end RecordQuery
