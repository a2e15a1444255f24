import RecordQuery.Proofs.Relation.Aggregation
import RecordQuery.Proofs.Relation.Unmatched

namespace RecordQuery

open PlannedLink
open Record (isQualified)

theorem SortKey.orderBy_append (keys others : List SortKey) (a b : Record) :
    orderBy (keys ++ others) a b = (orderBy keys a b).then (orderBy others a b) := by
  induction keys with
  | nil => rfl
  | cons key rest ih => rw [List.cons_append, orderBy, orderBy, ih, Ordering.then_assoc]

theorem SortKey.orderBy_of_missing {keys : List SortKey} {a b : Record}
    (h : ∀ key ∈ keys, key.accessor.read? a = none ∧ key.accessor.read? b = none) :
    orderBy keys a b = .eq := by
  induction keys with
  | nil => rfl
  | cons key rest ih =>
    obtain ⟨ha, hb⟩ := h key List.mem_cons_self
    have hkey : key.order a b = .eq := by
      unfold order ascendingOrder Accessor.readPresent?
      rw [ha, hb]
      cases key.descending <;> rfl
    rw [orderBy, hkey, ih fun other hother => h other (List.mem_cons_of_mem _ hother)]
    rfl

namespace Relation

variable {relation other : Relation}

theorem records_sort (h : other.records = relation.records) (keys : List SortKey) :
    (other.sort keys).records = (relation.sort keys).records := by
  unfold sort
  rw [h]
  rfl

theorem records_aggregate (h : other.records = relation.records) (entity : String)
    (offset : UtcOffset) (columns : List AggregateColumn) :
    (other.aggregate entity offset columns).map (·.records) =
      (relation.aggregate entity offset columns).map (·.records) := by
  unfold aggregate
  rw [h]
  split
  · simp only [bind_map]
    rfl
  · simp only [bind_map]
    rfl

end Relation

def Query.withCriteria (query : Query) (criteria : Filter) : Query := { query with criteria }

inductive Filter.Adds (condition : Condition) : Filter → Filter → Prop
  | bracket (filter : Filter) : Adds condition filter ⟨.and, [condition], [filter]⟩
  | among (first last : List Condition) (filters : List Filter) :
    Adds condition ⟨.and, first ++ last, filters⟩ ⟨.and, first ++ condition :: last, filters⟩

def Link.ShowsNothing (link : Link) : Prop := link.columns = .none ∨ link.columns = .columns []

def Link.OrdersOwn (link : Link) (aliasName : String) : Prop :=
  ∀ order ∈ link.orders, (order.alias? = none ∨ order.alias? = some aliasName) ∧
    isQualified order.column = false

theorem Filter.Adds.compile {context : Context} {aliases : AliasMap} {scope : Scope}
    {condition : Condition} {filter both : Filter} {predicate : Predicate}
    (h : Adds condition filter both) (hboth : both.compile context aliases scope = .ok predicate) :
    ∃ own rest, condition.compile context aliases scope = .ok own ∧
      filter.compile context aliases scope = .ok rest ∧
      ∀ row, predicate.admits row = (own.admits row && rest.admits row) := by
  cases h with
  | bracket filter =>
    unfold Filter.compile at hboth
    obtain ⟨conditions, hconditions, hboth⟩ := bind_eq_ok_iff.mp hboth
    obtain ⟨filters, hfilters, hboth⟩ := bind_eq_ok_iff.mp hboth
    obtain rfl := Except.ok.inj hboth
    obtain ⟨own, hown, hconditions⟩ := bind_eq_ok_iff.mp hconditions
    obtain rfl := Except.ok.inj hconditions
    obtain ⟨rest, hrest, hfilters⟩ := bind_eq_ok_iff.mp hfilters
    obtain rfl := Except.ok.inj hfilters
    refine ⟨own, rest, hown, hrest, ?_⟩
    intro row
    simp [combine, Predicate.admits_conjunction]
  | among first last filters =>
    unfold Filter.compile at hboth ⊢
    obtain ⟨conditions, hconditions, hboth⟩ := bind_eq_ok_iff.mp hboth
    obtain ⟨inner, hinner, hboth⟩ := bind_eq_ok_iff.mp hboth
    obtain rfl := Except.ok.inj hboth
    obtain ⟨before, own, after, rfl, hown, hothers⟩ := mapM_append_cons hconditions
    refine ⟨own, combine .and (before ++ after ++ inner), hown, ?_, ?_⟩
    · rw [hothers, ok_bind, hinner]
      rfl
    · intro row
      simp only [combine, Predicate.admits_conjunction, List.all_append, List.all_cons]
      cases own.admits row <;> simp

namespace Plan

structure Beside (outer none : Plan) (first : List PlannedLink) (aliasName : String) (link : Link)
    (last : List PlannedLink) : Prop where
  root : none.root = outer.root
  primaryId : none.primaryId = outer.primaryId
  outer : outer.links = first ++ ⟨aliasName, link.withKind .leftOuter, []⟩ :: last
  none : none.links = first ++ ⟨aliasName, link.withKind .notAny, []⟩ :: last

namespace Beside

variable {outer none : Plan} {first last : List PlannedLink} {aliasName : String} {link : Link}
  (h : Beside outer none first aliasName link last)

include h

theorem aliases : none.aliases = outer.aliases := by
  rw [Plan.aliases, Plan.aliases, h.none, h.outer, aliasesAll_append, aliasesAll_append]
  rfl

theorem mergedLinks : outer.mergedLinks =
    mergedAll first ++ ⟨aliasName, link.withKind .leftOuter, []⟩ :: mergedAll last := by
  rw [Plan.mergedLinks, h.outer, mergedAll_append]
  rfl

theorem mergedLinks_none : none.mergedLinks = mergedAll first ++ mergedAll last := by
  rw [Plan.mergedLinks, h.none, mergedAll_existential rfl, mergedAll_append]

variable (hnodup : (outer.aliases.map Prod.fst).Nodup)

include hnodup

theorem entity : AliasMap.entity outer.aliases aliasName = .ok link.entity := by
  apply AliasMap.entity_eq_ok hnodup
  rw [Plan.aliases, h.outer, aliasesAll_append]
  exact List.mem_append_right _ List.mem_cons_self

theorem not_mem_merged : aliasName ∉ (mergedAll first).map (·.aliasName) ∧
    aliasName ∉ (mergedAll last).map (·.aliasName) := by
  rw [Plan.aliases, h.outer, aliasesAll_append, List.map_append] at hnodup
  obtain ⟨-, hown, hapart⟩ := List.nodup_append.mp hnodup
  constructor
  · intro hmem
    exact hapart _ (merged_subset first hmem) aliasName List.mem_cons_self rfl
  · intro hmem
    exact (List.nodup_cons.mp hown).1 (merged_subset last hmem)

end Beside

variable {catalog : Catalog} {query : Query} {plan : Plan} {before after : List Link} {link : Link}
  {aliasName : String}
  (hplan : ofQuery catalog (query.withLinks (before ++ link.withKind .notAny :: after)) = .ok plan)
  (halias : link.alias? = some aliasName)

include hplan halias

theorem exists_beside (hlinks : link.links = []) {outer : Plan}
    (houter : ofQuery catalog (query.withLinks (before ++ link.withKind .leftOuter :: after)) =
      .ok outer) : ∃ first last, Beside outer plan first aliasName link last := by
  obtain ⟨parts, hparts⟩ := exists_parts
    (show (query.withLinks (before ++ link.withKind .notAny :: after)).links = _ from rfl) hplan
  obtain ⟨-, hname, hlink, hchildren⟩ := planLink_cases parts.planLink
  rw [show (link.withKind .notAny).alias? = some aliasName from halias] at hname
  rw [show (link.withKind .notAny).links = [] from hlinks, planLinks] at hchildren
  have hplanned : parts.planned = ⟨aliasName, link.withKind .notAny, []⟩ := by
    cases hcase : parts.planned with
    | mk name planned children =>
      rw [hcase] at hname hlink hchildren
      obtain rfl : name = aliasName := hname
      obtain rfl : planned = link.withKind .notAny := hlink
      obtain rfl : [] = children := (Prod.mk.inj (Except.ok.inj hchildren)).1
      rfl
  have hsame := parts.ofQuery_withKind hplan .leftOuter
  rw [hplanned] at hparts hsame
  obtain rfl := Except.ok.inj (hsame.symm.trans houter)
  exact ⟨parts.first, parts.last, rfl, rfl, rfl, hparts⟩

theorem not_isQualified_alias : Record.isQualified aliasName = false := by
  obtain ⟨-, -, reserved, last, hreserve, -⟩ := ofQuery_spec hplan
  obtain ⟨-, -, hvalid⟩ := Aliases.reserveAll_spec _ Aliases.empty (by rw [hreserve])
  apply Aliases.not_isQualified_of_isValid
  refine (hvalid aliasName ?_).2
  rw [Link.explicitAliasesAll_eq, List.mem_filterMap]
  refine ⟨link.withKind .notAny, ?_, halias⟩
  simp [Query.withLinks, Link.withinAll_append, Link.withinAll, Link.within_eq]

end Plan

namespace Context

variable {context : Context} {query : Query} {plan plan' : Plan} {before after : List PlannedLink}
  {planned : PlannedLink}

theorem paged_congr {relation other : Relation} (h : other.records = relation.records) :
    context.paged query other = context.paged query relation := by
  obtain ⟨records, aliases⟩ := relation
  obtain ⟨_, others⟩ := other
  obtain rfl := h
  unfold paged page
  cases query.distinct <;> cases query.top? <;> cases query.paging.isRequested <;> rfl

section Shape

variable (hmerged : plan.mergedLinks = before ++ planned :: after)
  (hmerged' : plan'.mergedLinks = before ++ after)

include hmerged hmerged'

theorem aggregateColumns_without (hcolumns : planned.link.ShowsNothing)
    {columns : List AggregateColumn} (h : context.aggregateColumns query plan = .ok columns) :
    context.aggregateColumns query plan' = .ok columns := by
  unfold aggregateColumns at h ⊢
  obtain ⟨own, hown, h⟩ := bind_eq_ok_iff.mp h
  obtain ⟨linked, hlinked, h⟩ := bind_eq_ok_iff.mp h
  rw [hmerged] at hlinked
  obtain ⟨first, shown, last, rfl, hshown, hothers⟩ := mapM_append_cons hlinked
  have hnone : shown = [] := by
    rcases hcolumns with hcolumns | hcolumns <;>
      · rw [hcolumns] at hshown
        exact (Except.ok.inj hshown).symm
  rw [hown, ok_bind, hmerged', hothers, ok_bind]
  simpa [hnone] using h

theorem projection_without (hcolumns : planned.link.ShowsNothing) {projection : Projection}
    (h : context.projection query plan = .ok projection) (hid : plan'.primaryId = plan.primaryId) :
    ∃ other, context.projection query plan' = .ok other ∧
      ∀ row, other.project row = projection.project row := by
  unfold Context.projection at h ⊢
  obtain ⟨root, hroot, h⟩ := bind_eq_ok_iff.mp h
  obtain ⟨linked, hlinked, h⟩ := bind_eq_ok_iff.mp h
  obtain rfl := Except.ok.inj h
  rw [hmerged] at hlinked
  obtain ⟨first, shown, last, rfl, hshown, hothers⟩ := mapM_append_cons hlinked
  obtain ⟨selection, hselection, hshown⟩ := bind_eq_ok_iff.mp hshown
  obtain rfl := Except.ok.inj hshown
  have hnothing : ∀ row shown, Projection.showLink row planned.aliasName selection shown = shown := by
    intro row shown
    rcases hcolumns with hcolumns | hcolumns <;>
      · rw [hcolumns] at hselection
        obtain rfl := Except.ok.inj hselection
        rfl
  refine ⟨⟨query.entity, plan.primaryId, root, first ++ last⟩, ?_, ?_⟩
  · rw [hroot, ok_bind, hmerged', hothers, hid]
    rfl
  · intro row
    simp only [Projection.project, List.foldl_append, List.foldl_cons, hnothing]
    rfl

theorem sortKeys_without (haliases : plan'.aliases = plan.aliases) {keys : List SortKey}
    (h : context.sortKeys query plan = .ok keys) :
    ∃ first own last, keys = first ++ own ++ last ∧
      planned.link.orders.mapM (context.sortKey plan.aliases
        (.link planned.link.entity planned.aliasName)) = .ok own ∧
      context.sortKeys query plan' = .ok (first ++ last) := by
  unfold sortKeys at h ⊢
  obtain ⟨root, hroot, h⟩ := bind_eq_ok_iff.mp h
  obtain ⟨linked, hlinked, h⟩ := bind_eq_ok_iff.mp h
  obtain rfl := Except.ok.inj h
  rw [hmerged] at hlinked
  obtain ⟨first, own, last, rfl, hown, hothers⟩ := mapM_append_cons hlinked
  refine ⟨root ++ first.flatten, own, last.flatten, ?_, hown, ?_⟩
  · simp
  · rw [haliases, hroot, ok_bind, hmerged', hothers, ok_bind, pure_eq_ok]
    simp

end Shape

theorem read?_of_ordersOwn {aliases : AliasMap} {row : Record} {keys : List SortKey}
    (horders : planned.link.OrdersOwn planned.aliasName)
    (hentity : aliases.entity planned.aliasName = .ok planned.link.entity)
    (hkeys : planned.link.orders.mapM (context.sortKey aliases
      (.link planned.link.entity planned.aliasName)) = .ok keys)
    (hlacks : row.Lacks planned.aliasName) : ∀ key ∈ keys, key.accessor.read? row = none := by
  intro key hkey
  obtain ⟨order, horder, hsortKey⟩ := exists_of_mem_mapM hkeys hkey
  obtain ⟨hown, hcolumn⟩ := horders order horder
  have hscope : (Scope.link planned.link.entity planned.aliasName).aliased aliases order.alias? =
      .ok (.link planned.link.entity planned.aliasName) := by
    rcases hown with hnone | hsome
    · rw [hnone]
      rfl
    · rw [hsome, Scope.aliased, hentity]
      rfl
  rw [sortKey, hscope, ok_bind] at hsortKey
  obtain ⟨accessor, haccessor, hsortKey⟩ := bind_eq_ok_iff.mp hsortKey
  obtain rfl := Except.ok.inj hsortKey
  obtain ⟨column, hresolve, rfl⟩ := map_eq_ok_iff.mp haccessor
  exact Accessor.read?_of_lacks hresolve hcolumn hlacks

theorem shaped_without (hmerged : plan.mergedLinks = before ++ planned :: after)
    (hmerged' : plan'.mergedLinks = before ++ after) (haliases : plan'.aliases = plan.aliases)
    (hid : plan'.primaryId = plan.primaryId) (hcolumns : planned.link.ShowsNothing)
    (horders : planned.link.OrdersOwn planned.aliasName)
    (hentity : AliasMap.entity plan.aliases planned.aliasName = .ok planned.link.entity)
    {relation other shown : Relation} {shape : Shape} (hrecords : relation.records = other.records)
    (hlacks : ∀ row ∈ other.records, row.Lacks planned.aliasName)
    (hshape : context.shape query plan = .ok shape)
    (hshown : context.shaped query relation shape = .ok shown) :
    ∃ shape' shown', context.shape query plan' = .ok shape' ∧
      context.shaped query other shape' = .ok shown' ∧ shown'.records = shown.records := by
  unfold Context.shape at hshape ⊢
  cases haggregate : query.aggregate with
  | true =>
    rw [haggregate, if_pos rfl] at hshape
    obtain ⟨columns, hcolumnsOk, hshape⟩ := bind_eq_ok_iff.mp hshape
    obtain rfl := Except.ok.inj hshape
    have hsame := Relation.records_aggregate hrecords.symm query.entity context.catalog.offset columns
    rw [show relation.aggregate query.entity context.catalog.offset columns = .ok shown from hshown]
      at hsame
    obtain ⟨shown', hshown', hsame⟩ := map_eq_ok_iff.mp hsame
    refine ⟨.aggregate columns, shown', ?_, hshown', hsame⟩
    rw [if_pos rfl, aggregateColumns_without hmerged hmerged' hcolumns hcolumnsOk]
    rfl
  | false =>
    rw [haggregate, if_neg Bool.false_ne_true] at hshape
    obtain ⟨keys, hkeys, hshape⟩ := bind_eq_ok_iff.mp hshape
    obtain ⟨projection, hprojection, hshape⟩ := bind_eq_ok_iff.mp hshape
    obtain rfl := Except.ok.inj hshape
    obtain rfl := Except.ok.inj hshown
    obtain ⟨first, own, last, rfl, hown, hkeys'⟩ :=
      sortKeys_without hmerged hmerged' haliases hkeys
    obtain ⟨projection', hprojection', hproject⟩ :=
      projection_without hmerged hmerged' hcolumns hprojection hid
    -- the rows have no value under the keys of the link, which therefore tell none of them apart
    have horder : ∀ row ∈ other.records, ∀ last' ∈ other.records,
        SortKey.orderBy (first ++ own ++ last) row last' =
          SortKey.orderBy (first ++ last) row last' := by
      intro row hrow last' hlast'
      have hown := SortKey.orderBy_of_missing fun key hkey =>
        ⟨read?_of_ordersOwn horders hentity hown (hlacks row hrow) key hkey,
          read?_of_ordersOwn horders hentity hown (hlacks last' hlast') key hkey⟩
      rw [SortKey.orderBy_append, SortKey.orderBy_append, SortKey.orderBy_append, hown,
        Ordering.then_eq]
    refine ⟨.rows (first ++ last) projection', _, ?_, rfl, ?_⟩
    · rw [if_neg Bool.false_ne_true, hkeys', ok_bind, hprojection']
      rfl
    · show ((other.sort (first ++ last)).records.map projection'.project) =
        (relation.sort (first ++ own ++ last)).records.map projection.project
      rw [Relation.records_sort hrecords, Relation.sort_congr horder, funext hproject]

/-- For a link that stands alone and shows nothing: what is linked to none of the records that it
asks for can be asked for through the kind of the link, or by the primary id that an outer link
leaves out. -/
theorem run_leftOuter_eq_notAny {before after : List Link} {link : Link}
    {aliasName primaryId : String} {criteria : Filter} {result other : QueryResult}
    (hlinks : link.links = []) (hcolumns : link.ShowsNothing) (halias : link.alias? = some aliasName)
    (hid : context.catalog.primaryId link.entity = .ok primaryId)
    (hplain : isQualified primaryId = false) (horders : link.OrdersOwn aliasName)
    (hheld : ∀ record ∈ context.store.records link.entity,
      record.getUnwrapped? primaryId ≠ some .null)
    (hroot : ∀ scanned, context.scan query.entity = .ok scanned →
      ∀ row ∈ scanned.records, row.Lacks aliasName)
    (hcriteria : Filter.Adds (.unmatched aliasName primaryId) query.criteria criteria)
    (houter : context.run
      ((query.withLinks (before ++ link.withKind .leftOuter :: after)).withCriteria criteria) =
        .ok result)
    (hnot : context.run (query.withLinks (before ++ link.withKind .notAny :: after)) = .ok other) :
    result = other := by
  obtain ⟨plan, both, shape, relation, shown, hplan, hboth, hshape, hrelation, hshown, rfl⟩ :=
    exists_of_run houter
  obtain ⟨plan', rest, shape', relation', shown', hplan', hrest, hshape', hrelation', hshown', rfl⟩ :=
    exists_of_run hnot
  obtain ⟨first, last, hbeside⟩ := Plan.exists_beside hplan' halias hlinks hplan
  have hnodup := Plan.aliases_nodup hplan
  have hentity := hbeside.entity hnodup
  obtain ⟨hfirst, hlast⟩ := hbeside.not_mem_merged hnodup
  have hsingled : context.Singled first aliasName link last primaryId :=
    ⟨Plan.not_isQualified_alias hplan' halias, hfirst, hlast, hid, hplain, hheld⟩
  obtain ⟨own, rest', hown, hrest', hadmits⟩ := hcriteria.compile hboth
  obtain ⟨column, hcolumn, rfl⟩ := Condition.compile_unmatched hentity hown
  rw [hbeside.aliases] at hrest
  obtain rfl := Except.ok.inj (hrest'.symm.trans hrest)
  obtain ⟨hplanRoot, hrootId, -⟩ := Plan.ofQuery_spec hplan
  have hscanned : context.scan query.entity = .ok (.scan context.store plan.root plan.primaryId) := by
    rw [scan, show context.catalog.primaryId query.entity = _ from hrootId, hplanRoot]
    rfl
  rw [matchingRows_eq_finish, hbeside.outer] at hrelation
  rw [matchingRows_eq_finish, hbeside.none, hbeside.aliases, hbeside.root, hbeside.primaryId]
    at hrelation'
  obtain ⟨hrecords, hlacks⟩ :=
    hsingled.finish_records hcolumn hadmits (hroot _ hscanned) hrelation hrelation'
  obtain ⟨shape'', shown'', hshape'', hshown'', hshownRecords⟩ :=
    shaped_without hbeside.mergedLinks hbeside.mergedLinks_none hbeside.aliases hbeside.primaryId
      hcolumns horders hentity hrecords hlacks hshape hshown
  obtain rfl := Except.ok.inj (hshape''.symm.trans hshape')
  obtain rfl := Except.ok.inj (hshown''.symm.trans hshown')
  exact (paged_congr hshownRecords).symm

def holding (entities : List EntityMetadata) (records : List Record) : Context where
  store := .ofList records
  catalog := { Catalog.empty with entities := entities }
  caller := default
  now := .greatest
  pageSize := 0

def accountNumber (n : Nat) : Record := ⟨"account", .ofNat n, .empty⟩

def ownedBy (n : Nat) (entity : String) (id : Nat) : Record :=
  ⟨entity, .ofNat id, .ofList [("accountid", .uuid (.ofNat n))]⟩

def ownable (entity : String) : EntityMetadata :=
  (EntityMetadata.ofName entity).withCode "accountid" .lookup

def contactLink (orders : List OrderBy) : Link :=
  ⟨"accountid", "contact", "accountid", .leftOuter, some "c", .none, .all, orders, []⟩

def accountsWithoutContact (before : List Link) (orders : List OrderBy) (primaryId : String) :
    Query :=
  ((Query.ofEntity "account").withLinks
    (before ++ (contactLink orders).withKind .leftOuter :: [])).withCriteria
      ⟨.and, [.unmatched "c" primaryId], []⟩

def accountsWithNoContact (before : List Link) (orders : List OrderBy) : Query :=
  (Query.ofEntity "account").withLinks (before ++ (contactLink orders).withKind .notAny :: [])

def twoAccounts : Context :=
  holding [.ofName "account", ownable "contact"]
    [accountNumber 1, accountNumber 2, ownedBy 1 "contact" 3]

theorem run_leftOuter_eq_notAny_accounts : ∃ result,
    twoAccounts.run (accountsWithoutContact [] [] "contactid") = .ok result ∧
      twoAccounts.run (accountsWithNoContact [] []) = .ok result ∧
      result.records.map (·.id) = [.ofNat 2] := by
  obtain ⟨result, hresult, hids⟩ : ∃ result,
      twoAccounts.run (accountsWithoutContact [] [] "contactid") = .ok result ∧
        result.records.map (·.id) = [.ofNat 2] := ⟨_, rfl, rfl⟩
  obtain ⟨other, hother⟩ : ∃ other,
      twoAccounts.run (accountsWithNoContact [] []) = .ok other := ⟨_, rfl⟩
  have hheld : ∀ record ∈ twoAccounts.store.records "contact",
      record.getUnwrapped? "contactid" ≠ some .null := by
    intro record hrecord
    obtain rfl := List.mem_singleton.mp hrecord
    simp [show (ownedBy 1 "contact" 3).getUnwrapped? "contactid" = none from rfl]
  have hroot : ∀ scanned, twoAccounts.scan "account" = .ok scanned →
      ∀ row ∈ scanned.records, row.Lacks "c" := by
    intro scanned hscanned row hrow name _
    obtain rfl := Except.ok.inj hscanned
    exact Relation.scan_plain (by decide) (by decide) row hrow _ (Record.isQualified_qualify "c" name)
  obtain rfl : result = other := by
    refine run_leftOuter_eq_notAny ?_ ?_ ?_ ?_ ?_ ?_ hheld hroot (.among [] [] []) hresult hother
    · rfl
    · exact Or.inl rfl
    · rfl
    · rfl
    · rfl
    · simp [Link.OrdersOwn, contactLink]
  exact ⟨result, hresult, hother, hids⟩

def TellsNullApart (context : Context) (before : List Link) (orders : List OrderBy)
    (primaryId : String) : Prop :=
  context.catalog.primaryId "contact" = .ok primaryId ∧ ∃ result other,
    context.run (accountsWithoutContact before orders primaryId) = .ok result ∧
      context.run (accountsWithNoContact before orders) = .ok other ∧ result ≠ other

def ranked (n : Nat) (entity : String) (id : Nat) (rank : Int64) : Record :=
  (ownedBy n entity id).set "rank" (.int rank)

/-- What tells them apart: an order by a column of another link, a column of an account that bears
the alias, a primary id with a point in its name, an alias with a point that a link beside it was
given, and a contact whose primary id is null. -/
theorem exists_leftOuter_ne_notAny :
    TellsNullApart
        (holding [.ofName "account", ownable "contact", (ownable "task").withCode "rank" .integer]
          [accountNumber 1, accountNumber 2, ranked 1 "task" 3 2, ranked 2 "task" 4 1])
        [⟨"accountid", "task", "accountid", .inner, some "t", .none, .all, [], []⟩]
        [⟨"rank", some "t", false⟩] "contactid" ∧
      TellsNullApart
        (holding [.ofName "account", ownable "contact"]
          [(accountNumber 1).set "c.contactid" (.int 1)])
        [] [] "contactid" ∧
      TellsNullApart
        (holding [.ofName "account",
            { (ownable "contact").withCode "contact.id" .uniqueIdentifier with
              primaryId := "contact.id" }]
          [accountNumber 1, ownedBy 1 "contact" 2])
        [] [] "contact.id" ∧
      TellsNullApart
        (holding [.ofName "account", (ownable "contact").withCode "task.rank" .integer,
            (ownable "c.task").withCode "rank" .integer]
          [accountNumber 1, accountNumber 2, ranked 1 "c.task" 3 2, ranked 2 "c.task" 4 1])
        [⟨"accountid", "c.task", "accountid", .inner, none, .none, .all, [], []⟩]
        [⟨"task.rank", none, false⟩] "contactid" ∧
      TellsNullApart
        (holding [.ofName "account", ownable "contact"]
          [accountNumber 1, (ownedBy 1 "contact" 2).set "contactid" .null])
        [] [] "contactid" := by
  have hne {first second : QueryResult}
      (h : first.records.map (·.id) ≠ second.records.map (·.id)) : first ≠ second :=
    fun heq => h (congrArg (fun result => result.records.map (·.id)) heq)
  refine ⟨⟨rfl, _, _, rfl, rfl, hne ?_⟩, ⟨rfl, _, _, rfl, rfl, hne ?_⟩,
    ⟨rfl, _, _, rfl, rfl, hne ?_⟩, ⟨rfl, _, _, rfl, rfl, hne ?_⟩, ⟨rfl, _, _, rfl, rfl, hne ?_⟩⟩
  · decide
  · decide
  · decide
  · decide
  · decide

end Context

end RecordQuery
