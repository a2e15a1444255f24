import RecordQuery.Document.Reader
import RecordQuery.Evaluation

namespace RecordQuery

structure Settings where
  caller : Caller
  fixedNow? : Option Instant
  pageSize : Nat
  deriving DecidableEq

namespace Settings

def default : Settings := ⟨⟨.nil, .nil⟩, none, 5000⟩

instance : Inhabited Settings := ⟨default⟩

def validate (settings : Settings) : Except Error Unit :=
  if settings.pageSize = 0 then .error (.setting .emptyPage) else .ok ()

end Settings

structure Engine where
  store : Store
  catalog : Catalog
  settings : Settings
  clock? : Option Instant

namespace Engine

def now (engine : Engine) (wallTime : Instant) : Instant :=
  match engine.clock?, engine.settings.fixedNow? with
  | some time, _ => time
  | none, some time => time
  | none, none => wallTime

def context (engine : Engine) (wallTime : Instant) : Context :=
  ⟨engine.store, engine.catalog, engine.settings.caller, engine.now wallTime,
    engine.settings.pageSize⟩

def run (engine : Engine) (wallTime : Instant) (query : Query) : Except Error QueryResult := do
  engine.settings.validate
  (engine.context wallTime).run query

def fetch (engine : Engine) (wallTime : Instant) (document : String) :
    Except Error QueryResult := do
  engine.run wallTime (← Query.ofDocument document)

end Engine

end RecordQuery
