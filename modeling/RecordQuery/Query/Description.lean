import RecordQuery.Query.Link

namespace RecordQuery

structure Query where
  entity : String
  columns : ColumnSet
  criteria : Filter
  orders : List OrderBy
  paging : Paging
  distinct : Bool
  top? : Option Nat
  links : List Link
  aggregate : Bool

namespace Query

def ofEntity (entity : String) : Query :=
  ⟨entity, .all, .all, [], .whole, false, none, [], false⟩

instance : Inhabited Query := ⟨ofEntity ""⟩

def same (a b : Query) : Bool :=
  a.entity == b.entity && a.columns == b.columns && a.criteria.same b.criteria &&
    a.orders == b.orders && a.paging == b.paging && a.distinct == b.distinct &&
    a.top? == b.top? && Link.sameAll a.links b.links && a.aggregate == b.aggregate

end Query

end RecordQuery
