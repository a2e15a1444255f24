import RecordQuery.Catalog.Resolve
import RecordQuery.Predicate.Window
import RecordQuery.Store

namespace RecordQuery

structure Caller where
  userId : Uuid
  businessUnitId : Uuid
  deriving DecidableEq

instance : Inhabited Caller := ⟨⟨.nil, .nil⟩⟩

structure Context where
  store : Store
  catalog : Catalog
  caller : Caller
  now : Instant
  pageSize : Nat

namespace Context

def present (context : Context) : Present :=
  ⟨context.now, context.catalog.offset, context.catalog.fiscal⟩

def callerId (context : Context) : CallerId → Uuid
  | .user => context.caller.userId
  | .businessUnit => context.caller.businessUnitId

end Context

end RecordQuery
