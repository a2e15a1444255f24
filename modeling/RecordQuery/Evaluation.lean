import RecordQuery.Plan
import RecordQuery.Predicate.Compile
import RecordQuery.Relation.Aggregate
import RecordQuery.Relation.Join
import RecordQuery.Relation.Project
import RecordQuery.Relation.Sort

/-!
The answer to a query: its entity is scanned, its links are joined, the rows are filtered, and what
is left is aggregated, or sorted and projected, and cut into pages.
-/

namespace RecordQuery

structure QueryResult where
  records : List Record
  totalCount? : Option Nat
  moreRecords : Bool

inductive Shape where
  | aggregate (columns : List AggregateColumn)
  | rows (keys : List SortKey) (projection : Projection)

namespace Context

def scan (context : Context) (entity : String) : Except Error Relation :=
  (context.catalog.primaryId entity).map (Relation.scan context.store entity)

mutual

/-- Joins a link to the rows. The filter of an inner link waits until all links are joined; that of
an outer link decides what is joined; an existential link drops rows by its filter and by the
filters that wait inside of it. -/
def joinLink (context : Context) (aliases : AliasMap) (parent? : Option String)
    (relation : Relation) (deferred : List Predicate) :
    PlannedLink → Except Error (Relation × List Predicate)
  | ⟨aliasName, link, children⟩ => do
    let leftColumn := Accessor.qualifiedBy parent? link.source
    let right ← context.scan link.entity
    match link.kind with
    | .inner =>
      let waiting ←
        if link.filter.isEmpty then pure []
        else do
          pure [← link.filter.compile context aliases (.link link.entity aliasName)]
      let joined := relation.join right leftColumn link.target aliasName false
      joinLinks context aliases (some aliasName) joined (deferred ++ waiting) children
    | .leftOuter =>
      let predicate ← link.filter.compile context aliases (.root link.entity)
      let admitted ← right.filter predicate
      let waiting ←
        if link.filter.isEmpty then pure []
        else do
          pure [← link.filter.relaxed.compile context aliases (.link link.entity aliasName)]
      let joined := relation.join admitted leftColumn link.target aliasName true
      joinLinks context aliases (some aliasName) joined (deferred ++ waiting) children
    | kind =>
      let predicate ← link.filter.compile context aliases (.root link.entity)
      let (linked, inner) ← joinLinks context aliases none right [predicate] children
      let kept ← relation.existsJoin linked kind leftColumn link.target
        (Predicate.conjunction inner)
      return (kept, deferred)

def joinLinks (context : Context) (aliases : AliasMap) (parent? : Option String)
    (relation : Relation) (deferred : List Predicate) :
    List PlannedLink → Except Error (Relation × List Predicate)
  | [] => return (relation, deferred)
  | link :: rest => do
    let (joined, waiting) ← joinLink context aliases parent? relation deferred link
    joinLinks context aliases parent? joined waiting rest

end

def sortKey (context : Context) (aliases : AliasMap) (scope : Scope) (order : OrderBy) :
    Except Error SortKey := do
  let source ← scope.aliased aliases order.alias?
  return ⟨← source.accessor context.catalog order.column, order.descending⟩

def sortKeys (context : Context) (query : Query) (plan : Plan) : Except Error (List SortKey) := do
  let own ← query.orders.mapM (context.sortKey plan.aliases (.root query.entity))
  let linked ← plan.mergedLinks.mapM fun planned =>
    planned.link.orders.mapM
      (context.sortKey plan.aliases (.link planned.link.entity planned.aliasName))
  return own ++ linked.flatten

def selection (context : Context) (columns : ColumnSet) (entity : String) :
    Except Error Selection :=
  match columns with
  | .all => .ok .all
  | .none => .ok .none
  | .columns listed => do
    let shown ← listed.mapM fun column => do
      let _ ← context.catalog.resolve entity column.name
      return (⟨column.name, column.alias?⟩ : ProjectedColumn)
    return .columns shown

def projection (context : Context) (query : Query) (plan : Plan) : Except Error Projection := do
  let root ← context.selection query.columns query.entity
  let links ← plan.mergedLinks.mapM fun planned => do
    return (planned.aliasName, ← context.selection planned.link.columns planned.link.entity)
  return ⟨query.entity, plan.primaryId, root, links⟩

def aggregateColumn (context : Context) (scope : Scope) (column : Column) :
    Except Error AggregateColumn := do
  let output ← match column.alias? with
    | some aliasName => pure aliasName
    | none => throw (.invalid (.aggregateWithoutAlias column.name))
  let role ← match column.aggregate?, column.groupBy with
    | some function, _ => pure (.apply function column.distinct)
    | none, true => pure (.groupBy column.dateGrouping?)
    | none, false => throw (.invalid (.plainColumnInAggregate column.name))
  let accessor ← scope.accessor context.catalog column.name
  return ⟨output, scope.alias?.getD scope.entity, column.name, accessor, role⟩

def aggregateColumnsOf (context : Context) (scope : Scope) (columns : ColumnSet) :
    Except Error (List AggregateColumn) :=
  match columns with
  | .all => .error (.invalid .allColumnsInAggregate)
  | .none => .ok []
  | .columns listed => listed.mapM (context.aggregateColumn scope)

def aggregateColumns (context : Context) (query : Query) (plan : Plan) :
    Except Error (List AggregateColumn) := do
  let own ← context.aggregateColumnsOf (.root query.entity) query.columns
  let linked ← plan.mergedLinks.mapM fun planned =>
    context.aggregateColumnsOf (.link planned.link.entity planned.aliasName) planned.link.columns
  match own ++ linked.flatten with
  | [] => throw (.invalid .emptyAggregate)
  | columns => return columns

def shape (context : Context) (query : Query) (plan : Plan) : Except Error Shape := do
  if query.aggregate then
    return .aggregate (← context.aggregateColumns query plan)
  else
    return .rows (← context.sortKeys query plan) (← context.projection query plan)

def matchingRows (context : Context) (plan : Plan) (criteria : Predicate) :
    Except Error Relation := do
  let scanned := Relation.scan context.store plan.root plan.primaryId
  let (joined, filters) ← context.joinLinks plan.aliases none scanned [criteria] plan.links
  joined.filter (Predicate.conjunction filters)

def shaped (context : Context) (query : Query) (relation : Relation) :
    Shape → Except Error Relation
  | .aggregate columns => relation.aggregate query.entity context.catalog.offset columns
  | .rows keys projection => .ok ((relation.sort keys).project projection)

def page (context : Context) (paging : Paging) (relation : Relation) : Relation × Bool :=
  if paging.isRequested then
    let size := paging.count?.getD context.pageSize
    let offset := saturatingMul (max 1 (paging.page?.getD 1) - 1) size
    (relation.slice size offset, decide (saturatingAdd offset size < relation.size))
  else
    (relation, false)

def paged (context : Context) (query : Query) (relation : Relation) : QueryResult :=
  let distinct := if query.distinct then relation.distinct else relation
  let first := match query.top? with
    | some top => distinct.slice top 0
    | none => distinct
  let (shown, moreRecords) := context.page query.paging first
  ⟨shown.records, if query.paging.totalCount then some first.size else none, moreRecords⟩

def run (context : Context) (query : Query) : Except Error QueryResult := do
  let plan ← Plan.ofQuery context.catalog query
  let criteria ← query.criteria.compile context plan.aliases (.root query.entity)
  let shape ← context.shape query plan
  let relation ← context.matchingRows plan criteria
  return context.paged query (← context.shaped query relation shape)

end Context

end RecordQuery
