import RecordQuery.Proofs.Relation.Appearance
import RecordQuery.Proofs.Relation.Showing
import RecordQuery.Proofs.Relation.TwinRows

namespace RecordQuery

open PlannedLink
open Record (isQualified)

namespace Projection

variable {row other : Record} {name : String} {parts : List Part}

theorem get?_write_congr (h : ∀ part ∈ parts, ∀ key, part.source? name = some key →
      other.get? key = row.get? key) {shown shown' : Record}
    (hshown : shown'.get? name = shown.get? name) :
    (write other parts shown').get? name = (write row parts shown).get? name := by
  induction parts generalizing shown shown' with
  | nil => exact hshown
  | cons part rest ih =>
    apply ih fun later hlater => h later (List.mem_cons_of_mem _ hlater)
    rw [Part.get?_write, Part.get?_write, hshown]
    cases hsource : part.source? name with
    | none => rfl
    | some key => rw [Option.bind_some, Option.bind_some, h part List.mem_cons_self key hsource]

theorem blank_write (h : ∀ part ∈ parts, ∀ key, part.source? name = some key →
      Blank (row.get? key)) {shown : Record} (hshown : Blank (shown.get? name)) :
    Blank ((write row parts shown).get? name) := by
  induction parts generalizing shown with
  | nil => exact hshown
  | cons part rest ih =>
    apply ih fun later hlater => h later (List.mem_cons_of_mem _ hlater)
    rw [Part.get?_write]
    cases hsource : part.source? name with
    | none => exact hshown
    | some key =>
      have hblank := h part List.mem_cons_self key hsource
      cases hvalue : row.get? key with
      | none =>
        rw [Option.bind_some, hvalue]
        exact hshown
      | some value =>
        rw [Option.bind_some, hvalue]
        apply Blank.some
        rw [Part.unwrap_wrap, hblank value hvalue]

def Single (row : Record) (parts : List Part) : Prop := ∀ name, ∃ key, Sole row parts name key

theorem Single.eq (h : Single row parts) {part later : Part} {key inner : String}
    (hpart : part ∈ parts) (hsource : part.source? name = some key) (hkey : row.get? key ≠ none)
    (hlater : later ∈ parts) (hinner : later.source? name = some inner)
    (hheld : row.get? inner ≠ none) : inner = key := by
  obtain ⟨sole, hsole⟩ := h name
  rw [(hsole part hpart key hsource).resolve_right hkey,
    (hsole later hlater inner hinner).resolve_right hheld]

theorem project_twin {K : String → Prop} {projection : Projection} (h : Record.Twin K row other)
    (hrow : Single row projection.parts) (hother : Single other projection.parts) :
    Record.Twin (fun _ => True) (projection.project row) (projection.project other) := by
  constructor
  · rw [identity_project, identity_project, h.identity]
  · intro name
    rw [project_eq, project_eq]
    by_cases hsame : ∀ part ∈ projection.parts, ∀ key, part.source? name = some key →
      other.get? key = row.get? key
    · exact Or.inl (get?_write_congr hsame rfl)
    · push Not at hsame
      obtain ⟨part, hpart, key, hsource, hdiffer⟩ := hsame
      -- One of the twins holds null here, so that it shows nothing else under the name.
      have hblank : ∀ later ∈ projection.parts, ∀ inner, later.source? name = some inner →
          Blank (row.get? inner) ∧ Blank (other.get? inner) := by
        intro later hlater inner hinner
        rcases h.held inner with heq | ⟨-, hblank⟩
        · have hne : inner ≠ key := by
            rintro rfl
            exact hdiffer heq
          have hnone : row.get? inner = none := by
            by_contra hheld
            by_cases hkey : row.get? key = none
            · rw [hkey] at hdiffer
              rw [← heq] at hheld
              exact hne (hother.eq hpart hsource hdiffer hlater hinner hheld)
            · exact hne (hrow.eq hpart hsource hkey hlater hinner hheld)
          rw [heq, hnone]
          exact ⟨Blank.none, Blank.none⟩
        · exact hblank
      refine Or.inr ⟨trivial, ?_, ?_⟩
      · exact blank_write (fun later hlater inner hinner =>
          (hblank later hlater inner hinner).1) Blank.none
      · exact blank_write (fun later hlater inner hinner =>
          (hblank later hlater inner hinner).2) Blank.none

end Projection

namespace Context

variable {context : Context} {query : Query} {plan : Plan}

theorem mem_aliases_of_merged {planned : PlannedLink} (h : planned ∈ plan.mergedLinks) :
    (planned.aliasName, planned.link.entity) ∈ plan.aliases := by
  obtain ⟨step, hstep, halias, hlink⟩ := exists_step_of_mergedAll none plan.links planned h
  rw [Plan.aliases, ← stepsAll_aliases none plan.links, ← halias, ← hlink]
  exact List.mem_map_of_mem hstep

theorem sortKey_in {scope : Scope} {order : OrderBy} {key : SortKey}
    (h : context.sortKey plan.aliases scope order = .ok key) :
    key.accessor.In context.catalog plan.aliases scope := by
  obtain ⟨source, hsource, h⟩ := bind_eq_ok_iff.mp h
  obtain ⟨accessor, haccessor, h⟩ := bind_eq_ok_iff.mp h
  obtain rfl := Except.ok.inj h
  exact ⟨source, order.column, Scope.reaches_of_aliased hsource, haccessor⟩

theorem sortKeys_of {keys : List SortKey} (hnodup : (plan.aliases.map Prod.fst).Nodup)
    (h : context.sortKeys query plan = .ok keys) :
    ∀ key ∈ keys, key.accessor.Of context.catalog plan query.entity := by
  intro key hkey
  obtain ⟨own, hown, h⟩ := bind_eq_ok_iff.mp h
  obtain ⟨linked, hlinked, h⟩ := bind_eq_ok_iff.mp h
  obtain rfl := Except.ok.inj h
  rcases List.mem_append.mp hkey with hkey | hkey
  · obtain ⟨order, -, horder⟩ := exists_of_mem_mapM hown hkey
    exact sortKey_in horder
  · obtain ⟨inner, hinner, hkey⟩ := List.mem_flatten.mp hkey
    obtain ⟨planned, hplanned, horders⟩ := exists_of_mem_mapM hlinked hinner
    obtain ⟨order, -, horder⟩ := exists_of_mem_mapM horders hkey
    exact Accessor.of_link (mem_aliases_of_merged hplanned) hnodup (sortKey_in horder)

theorem aggregateColumn_in {scope : Scope} {column : Column} {found : AggregateColumn}
    (h : context.aggregateColumn scope column = .ok found) :
    found.accessor.In context.catalog plan.aliases scope := by
  have hfinish (output : String) (role : AggregateRole) (h : (do
      let accessor ← scope.accessor context.catalog column.name
      return (⟨output, scope.alias?.getD scope.entity, column.name, accessor, role⟩ :
        AggregateColumn)) = .ok found) : found.accessor.In context.catalog plan.aliases scope := by
    obtain ⟨accessor, haccessor, h⟩ := bind_eq_ok_iff.mp h
    obtain rfl := Except.ok.inj h
    exact ⟨scope, column.name, Or.inl rfl, haccessor⟩
  unfold aggregateColumn at h
  cases hname : column.alias? with
  | none =>
    rw [hname] at h
    contradiction
  | some output =>
    simp only [hname, pure_eq_ok, ok_bind] at h
    split at h
    · exact hfinish output _ h
    · exact hfinish output _ h
    · contradiction

theorem aggregateColumnsOf_in {scope : Scope} {columns : ColumnSet}
    {found : List AggregateColumn} (h : context.aggregateColumnsOf scope columns = .ok found) :
    ∀ column ∈ found, column.accessor.In context.catalog plan.aliases scope := by
  intro column hcolumn
  unfold aggregateColumnsOf at h
  split at h
  · contradiction
  · obtain rfl := Except.ok.inj h
    contradiction
  · obtain ⟨listed, -, hlisted⟩ := exists_of_mem_mapM h hcolumn
    exact aggregateColumn_in hlisted

theorem aggregateColumns_of {columns : List AggregateColumn}
    (hnodup : (plan.aliases.map Prod.fst).Nodup)
    (h : context.aggregateColumns query plan = .ok columns) :
    ∀ column ∈ columns, column.accessor.Of context.catalog plan query.entity := by
  intro column hcolumn
  obtain ⟨own, hown, h⟩ := bind_eq_ok_iff.mp h
  obtain ⟨linked, hlinked, h⟩ := bind_eq_ok_iff.mp h
  have hall : columns = own ++ linked.flatten := by
    split at h
    · contradiction
    · exact (Except.ok.inj h).symm
  rw [hall] at hcolumn
  rcases List.mem_append.mp hcolumn with hcolumn | hcolumn
  · exact aggregateColumnsOf_in hown column hcolumn
  · obtain ⟨inner, hinner, hcolumn⟩ := List.mem_flatten.mp hcolumn
    obtain ⟨planned, hplanned, hcolumns⟩ := exists_of_mem_mapM hlinked hinner
    exact Accessor.of_link (mem_aliases_of_merged hplanned) hnodup
      (aggregateColumnsOf_in hcolumns column hcolumn)

theorem slice_alike {S : Record → Record → Prop} {relation other : Relation}
    (h : Relation.Alike S relation other) (limit offset : Nat) :
    Relation.Alike S (relation.slice limit offset) (other.slice limit offset) where
  records := by
    have hsize : other.size = relation.size := h.records.length_eq.symm
    unfold Relation.slice
    rw [hsize]
    exact List.forall₂_drop _ (List.forall₂_take _ h.records)
  aliases := h.aliases

theorem page_alike {S : Record → Record → Prop} {relation other : Relation} (context : Context)
    (paging : Paging) (h : Relation.Alike S relation other) :
    Relation.Alike S (context.page paging relation).1 (context.page paging other).1 ∧
      (context.page paging other).2 = (context.page paging relation).2 := by
  have hsize : other.size = relation.size := h.records.length_eq.symm
  unfold page
  split
  · exact ⟨slice_alike h _ _, by rw [hsize]⟩
  · exact ⟨h, rfl⟩

end Context

structure QueryResult.Twin (result other : QueryResult) : Prop where
  records : List.Forall₂ (Record.Twin fun _ => True) result.records other.records
  totalCount? : other.totalCount? = result.totalCount?
  moreRecords : other.moreRecords = result.moreRecords

namespace Context

variable {context : Context} {query : Query} {plan : Plan}

theorem paged_twin {relation other : Relation} (hdistinct : query.distinct = false)
    (h : Relation.Alike (Record.Twin fun _ => True) relation other) :
    (context.paged query relation).Twin (context.paged query other) := by
  have hcut (first first' : Relation)
      (hfirst : Relation.Alike (Record.Twin fun _ => True) first first') :
      QueryResult.Twin
        ⟨(context.page query.paging first).1.records,
          if query.paging.totalCount then some first.size else none,
          (context.page query.paging first).2⟩
        ⟨(context.page query.paging first').1.records,
          if query.paging.totalCount then some first'.size else none,
          (context.page query.paging first').2⟩ := by
    obtain ⟨hpage, hmore⟩ := page_alike context query.paging hfirst
    refine ⟨hpage.records, ?_, hmore⟩
    rw [Relation.size, Relation.size, hfirst.records.length_eq]
  unfold paged
  rw [hdistinct]
  cases query.top? with
  | some top => exact hcut _ _ (slice_alike h top 0)
  | none => exact hcut _ _ h

def ShowsSingle (context : Context) (query : Query) (plan : Plan) (relation : Relation) : Prop :=
  query.aggregate = false → ∀ projection, context.projection query plan = .ok projection →
    ∀ row ∈ relation.records, Projection.Single row projection.parts

/-- No name that the query meets has two meanings: the records hold nothing under the names of
joins, the names of reference columns have no points, and a row shows at most one attribute under a
name. -/
structure Unambiguous (context : Context) (query : Query) : Prop where
  names : ∀ plan, Plan.ofQuery context.catalog query = .ok plan →
    plan.Separates context.catalog context.store
  shown : ∀ plan criteria relation, Plan.ofQuery context.catalog query = .ok plan →
    query.criteria.compile context plan.aliases (.root query.entity) = .ok criteria →
    context.matchingRows plan criteria = .ok relation → context.ShowsSingle query plan relation

section Run

variable {store : Store}

theorem shaped_twin (h : context.Twin store plan) (hroot : plan.root = query.entity)
    {relation other : Relation} {shape : Shape} (hshape : context.shape query plan = .ok shape)
    (hrows : Relation.Alike (Record.Twin (plan.MayBeNull context.catalog plan.root)) relation other)
    (hrelation : context.ShowsSingle query plan relation)
    (hother : context.ShowsSingle query plan other) :
    Carries True
      (fun shown shown' => (query.aggregate = true → shown' = shown) ∧
        Relation.Alike (Record.Twin fun _ => True) shown shown')
      (context.shaped query relation shape)
      ((context.withStore store).shaped query other shape) := by
  have hkeeps (accessor : Accessor) (hof : accessor.Of context.catalog plan query.entity) :
      accessor.Keeps (Record.Twin (plan.MayBeNull context.catalog plan.root)) := by
    rw [← hroot] at hof
    exact h.keeps List.mem_cons_self hof
  unfold Context.shape at hshape
  split at hshape
  · obtain ⟨columns, hcolumns, hshape⟩ := bind_eq_ok_iff.mp hshape
    obtain rfl := Except.ok.inj hshape
    have hsame := Relation.aggregate_present
      (fun column hcolumn => hkeeps _ (aggregateColumns_of h.aliases hcolumns column hcolumn))
      hrows.aliases hrows.records query.entity context.catalog.offset
    apply (Carries.of_eq hsame).imp
    rintro shown _ rfl
    exact ⟨fun _ => rfl, List.forall₂_same.mpr fun row _ => Record.Twin.refl _ row, rfl⟩
  · rename_i haggregate
    obtain ⟨keys, hkeys, hshape⟩ := bind_eq_ok_iff.mp hshape
    obtain ⟨projection, hprojection, hshape⟩ := bind_eq_ok_iff.mp hshape
    obtain rfl := Except.ok.inj hshape
    have hsorted := Relation.sort_alike
      (fun key hkey => hkeeps _ (sortKeys_of h.aliases hkeys key hkey)) hrows.records
    have hplain := Bool.eq_false_of_not_eq_true haggregate
    refine Carries.of_ok ⟨fun htrue => absurd htrue haggregate, ?_, hrows.aliases⟩
    rw [Relation.project, Relation.project, Relation.withRecords, Relation.withRecords,
      List.forall₂_map_left_iff, List.forall₂_map_right_iff]
    refine (forall₂_with_mem hsorted).imp ?_
    rintro row row' ⟨⟨hrow, hrow'⟩, htwin⟩
    apply Projection.project_twin htwin
    · exact hrelation hplain projection hprojection row
        ((Relation.sort_perm keys relation).subset hrow)
    · exact hother hplain projection hprojection row'
        ((Relation.sort_perm keys other).subset hrow')

theorem run_carries_twin (hdistinct : query.distinct = false)
    (hstores : Store.Twin context.catalog context.store store) (hown : context.Unambiguous query)
    (hother : (context.withStore store).Unambiguous query) :
    Carries True
      (fun result other => (query.aggregate = true → other = result) ∧ result.Twin other)
      (context.run query) ((context.withStore store).run query) := by
  have hplans : Carries True Eq (Plan.ofQuery context.catalog query)
      (Plan.ofQuery (context.withStore store).catalog query) := Carries.of_eq rfl
  apply hplans.with_ok.bind
  rintro plan _ ⟨hplan, -, rfl⟩
  obtain ⟨hroot, hid, -⟩ := Plan.ofQuery_spec hplan
  have h : context.Twin store plan :=
    ⟨hstores, hown.names plan hplan, hother.names plan hplan, Plan.aliases_nodup hplan⟩
  have hcriteria := h.compile_root query.entity query.criteria
  apply hcriteria.with_ok.bind
  rintro _ criteria ⟨hcriteria, hcriteria', rfl, hreads⟩
  have hshapes : Carries True Eq (context.shape query plan)
      ((context.withStore store).shape query plan) := Carries.of_eq rfl
  apply hshapes.with_ok.bind
  rintro shape _ ⟨hshape, -, rfl⟩
  rw [← hroot] at hid hreads
  apply (h.matchingRows hid hreads).with_ok.bind
  rintro relation other ⟨hrelation, hrelation', hrows⟩
  apply (shaped_twin h hroot hshape hrows
    (hown.shown plan criteria relation hplan hcriteria hrelation)
    (hother.shown plan criteria other hplan hcriteria' hrelation')).bind
  rintro shown shown' ⟨haggregate, htwin⟩
  refine Carries.of_ok ⟨fun htrue => ?_, paged_twin hdistinct htwin⟩
  rw [haggregate htrue]
  rfl

/-- Over stores that differ only in what is null in the one and missing in the other a query fails
with the same fault, or has the same answer up to null, which for an aggregate is the very same. -/
theorem run_twin {a b : Store} (hdistinct : query.distinct = false)
    (hstores : Store.Twin context.catalog a b) (ha : (context.withStore a).Unambiguous query)
    (hb : (context.withStore b).Unambiguous query) :
    (∃ fault, (context.withStore a).run query = .error fault ∧
        (context.withStore b).run query = .error fault) ∨
      ∃ result other, (context.withStore a).run query = .ok result ∧
        (context.withStore b).run query = .ok other ∧
        (query.aggregate = true → other = result) ∧ result.Twin other := by
  have hrun := @run_carries_twin (context.withStore a) query b hdistinct hstores ha hb
  cases hresult : (context.withStore a).run query with
  | error fault => exact Or.inl ⟨fault, rfl, hrun.error trivial fault hresult⟩
  | ok result =>
    obtain ⟨other, hother, htwin⟩ := hrun.ok result hresult
    exact Or.inr ⟨result, other, rfl, hother, htwin⟩

end Run

def accountsOf (account contact : EntityMetadata) : Context where
  store := .empty
  catalog := { Catalog.empty with entities := [account, contact] }
  caller := default
  now := .greatest
  pageSize := 0

def accountsWithPhone : Context :=
  accountsOf (((EntityMetadata.ofName "account").withCode "name" .string).withCode "phone" .string)
    (.ofName "contact")

def northern : Record := ⟨"account", .ofNat 1, .ofList [("name", .text "north")]⟩

def whereColumn (column : String) (operator : Operator) (values : List Value) : Filter :=
  ⟨.and, [⟨column, none, operator, values, none, false⟩], []⟩

def accountsWithoutPhone : Query :=
  { Query.ofEntity "account" with criteria := whereColumn "phone" (.null false) [] }

theorem unambiguous_accountsWithoutPhone (store : Store) :
    (accountsWithPhone.withStore store).Unambiguous accountsWithoutPhone := by
  constructor
  · intro plan hplan
    obtain rfl := Except.ok.inj hplan
    have hfree (name : String) : ¬ Plan.Reserves ⟨"account", "accountid", []⟩ name := by
      rintro ⟨aliasName, hmem, -⟩
      contradiction
    constructor
    · exact fun _ _ _ name _ => hfree name
    · exact fun _ _ name _ => hfree name
    · intro entity hentity name hname
      obtain rfl := List.mem_singleton.mp hentity
      obtain ⟨recorded, hrecorded, -⟩ := Option.map_eq_some_iff.mp hname
      have hmem : name ∈ ["accountid", "name", "phone"] := by
        by_contra hnot
        rw [EntityMetadata.attribute?, Record.lookup_eq_none hnot] at hrecorded
        contradiction
      have hplain : ∀ name ∈ ["accountid", "name", "phone"], isQualified name = false := by decide
      exact hplain name hmem
  · intro plan criteria relation hplan _ _ _ projection hprojection row _ name
    obtain rfl := Except.ok.inj hplan
    obtain rfl := Except.ok.inj hprojection
    refine ⟨name, fun part hpart key hkey => Or.inl ?_⟩
    obtain rfl := List.mem_singleton.mp hpart
    rw [Projection.Part.source?] at hkey
    split at hkey
    · contradiction
    · exact (Option.some.inj hkey).symm

theorem declares_phone : accountsWithPhone.catalog.Declares "account" "phone" :=
  Catalog.declares_of_resolve rfl rfl rfl (by decide)

theorem twin_northern : Store.Twin accountsWithPhone.catalog (.ofList [northern])
    (.ofList [northern.set "phone" .null]) :=
  .cons (Record.Twin.set_null declares_phone rfl) .nil

theorem run_twin_northern : ∃ result other,
    (accountsWithPhone.withStore (.ofList [northern])).run accountsWithoutPhone = .ok result ∧
      (accountsWithPhone.withStore (.ofList [northern.set "phone" .null])).run
        accountsWithoutPhone = .ok other ∧
      result.records = [Relation.identified "accountid" northern] ∧
      other.records = [Relation.identified "accountid" (northern.set "phone" .null)] ∧
      result.Twin other := by
  have hdistinct : accountsWithoutPhone.distinct = false := rfl
  have hfirst : (accountsWithPhone.withStore (.ofList [northern])).run accountsWithoutPhone =
      .ok ⟨[Relation.identified "accountid" northern], none, false⟩ := rfl
  have hsecond : (accountsWithPhone.withStore (.ofList [northern.set "phone" .null])).run
      accountsWithoutPhone =
      .ok ⟨[Relation.identified "accountid" (northern.set "phone" .null)], none, false⟩ := rfl
  rcases run_twin hdistinct twin_northern
    (unambiguous_accountsWithoutPhone _) (unambiguous_accountsWithoutPhone _) with
    ⟨fault, hfault, -⟩ | ⟨result, other, hresult, hother, -, htwin⟩
  · rw [hfirst] at hfault
    contradiction
  · refine ⟨result, other, hresult, hother, ?_, ?_, htwin⟩
    · rw [← Except.ok.inj (hfirst.symm.trans hresult)]
    · rw [← Except.ok.inj (hsecond.symm.trans hother)]

def TellsApart (context : Context) (query : Query) (a b : Store) : Prop :=
  query.distinct = false ∧ query.aggregate = false ∧ Store.Twin context.catalog a b ∧
    ∃ result other, (context.withStore a).run query = .ok result ∧
      (context.withStore b).run query = .ok other ∧ ¬ result.Twin other

def accountsUnderOneName : Query :=
  { Query.ofEntity "account" with
    columns := .columns [{ Column.named "name" with alias? := some "x" },
      { Column.named "phone" with alias? := some "x" }] }

def whereEqual (column text : String) : Filter := whereColumn column (.compare .equal) [.text text]

def throughContacts (source : String) (criteria filter : Filter) : Query :=
  { Query.ofEntity "account" with
    columns := .none
    criteria := criteria
    links := [⟨source, "contact", "parent", .inner, some "c", .none, filter, [], []⟩] }

def bare : Record := ⟨"account", .ofNat 1, .empty⟩

def ann : Value := .reference ⟨"user", .ofNat 3, some "ann"⟩

def contactOf (parent : Value) : Record := ⟨"contact", .ofNat 2, .ofList [("parent", parent)]⟩

def accountsWithOwnerName : Context :=
  accountsOf ((EntityMetadata.ofName "account").withCode "c.ownername" .string)
    (((EntityMetadata.ofName "contact").withLookup "parent" []).withLookup "owner" [])

def accountsWithOwner : Context :=
  accountsOf ((EntityMetadata.ofName "account").withLookup "c.owner" [])
    (((EntityMetadata.ofName "contact").withLookup "parent" []).withCode "ownername" .string)

def accountsByPhone : Context :=
  accountsOf
    { (EntityMetadata.ofName "account").withCode "name" .string with primaryId := "c.phone" }
    (((EntityMetadata.ofName "contact").withCode "parent" .string).withCode "phone" .string)

theorem exists_tellsApart :
    TellsApart accountsWithPhone accountsUnderOneName (.ofList [northern])
        (.ofList [northern.set "phone" .null]) ∧
      TellsApart accountsWithOwnerName
        (throughContacts "accountid" .all (whereEqual "ownername" "ann"))
        (.ofList [bare, (contactOf (.uuid (.ofNat 1))).set "owner" ann])
        (.ofList [bare.set "c.ownername" .null, (contactOf (.uuid (.ofNat 1))).set "owner" ann]) ∧
      TellsApart accountsWithOwner
        (throughContacts "accountid" (whereEqual "c.ownername" "ann") .all)
        (.ofList [bare.set "c.owner" ann, contactOf (.uuid (.ofNat 1))])
        (.ofList [bare.set "c.owner" ann, (contactOf (.uuid (.ofNat 1))).set "ownername" .null]) ∧
      TellsApart accountsByPhone (throughContacts "name" .all .all)
        (.ofList [northern, contactOf (.text "north")])
        (.ofList [northern, (contactOf (.text "north")).set "phone" .null]) := by
  have hshows {row other : Record} (key : String) (value : Value)
      (hrow : row.getUnwrapped? key = some value) (hvalue : value ≠ .null)
      (hother : other.getUnwrapped? key = some .null) :
      ¬ QueryResult.Twin ⟨[row], none, false⟩ ⟨[other], none, false⟩ := by
    intro htwin
    have hsame := (List.forall₂_cons.mp htwin.records).1.getUnwrapped?_of_not_null hrow hvalue
    exact hvalue (Option.some.inj (hsame.symm.trans hother))
  have hdrops {row : Record} : ¬ QueryResult.Twin ⟨[row], none, false⟩ ⟨[], none, false⟩ := by
    intro htwin
    exact absurd htwin.records.length_eq (by simp)
  refine ⟨⟨rfl, rfl, twin_northern, _, _, rfl, rfl, ?_⟩, ⟨rfl, rfl, ?_, _, _, rfl, rfl, ?_⟩,
    ⟨rfl, rfl, ?_, _, _, rfl, rfl, ?_⟩, ⟨rfl, rfl, ?_, _, _, rfl, rfl, ?_⟩⟩
  · exact hshows "x" (.text "north") rfl (by simp) rfl
  · have hdeclares : accountsWithOwnerName.catalog.Declares "account" "c.ownername" :=
      Catalog.declares_of_resolve rfl rfl rfl (by decide)
    exact .cons (.set_null hdeclares rfl) (.cons (.refl _ _) .nil)
  · exact hdrops
  · have hdeclares : accountsWithOwner.catalog.Declares "contact" "ownername" :=
      Catalog.declares_of_resolve rfl rfl rfl (by decide)
    exact .cons (.refl _ _) (.cons (.set_null hdeclares rfl) .nil)
  · exact hdrops
  · have hdeclares : accountsByPhone.catalog.Declares "contact" "phone" :=
      Catalog.declares_of_resolve rfl rfl rfl (by decide)
    exact .cons (.refl _ _) (.cons (.set_null hdeclares rfl) .nil)
  · exact hshows "c.phone" (.uuid (.ofNat 1)) rfl (by simp) rfl

end Context

end RecordQuery
