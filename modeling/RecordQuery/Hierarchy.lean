import RecordQuery.Store

namespace RecordQuery

structure Hierarchy where
  store : Store
  entity : String
  parentColumn : String

namespace Hierarchy

def contains (hierarchy : Hierarchy) (id : Uuid) : Bool :=
  (hierarchy.store.get? hierarchy.entity id).isSome

def parentIn (hierarchy : Hierarchy) (record : Record) : Option Uuid :=
  (record.getUnwrapped? hierarchy.parentColumn).bind Value.uuid?

def parent? (hierarchy : Hierarchy) (id : Uuid) : Option Uuid :=
  (hierarchy.store.get? hierarchy.entity id).bind hierarchy.parentIn

def children (hierarchy : Hierarchy) (id : Uuid) : List Uuid :=
  ((hierarchy.store.records hierarchy.entity).filter fun record =>
    hierarchy.parentIn record == some id).map (·.id)

/-- The chain of parents, up to a record that was met before. Each step but the last leaves a
record of the entity, so the number of those bounds the steps. -/
def climb (hierarchy : Hierarchy) : (steps : Nat) → (seen : List Uuid) → Uuid → List Uuid
  | 0, _, _ => []
  | steps + 1, seen, id =>
    match hierarchy.parent? id with
    | none => []
    | some parent =>
      if seen.contains parent then []
      else parent :: hierarchy.climb steps (parent :: seen) parent

def ancestors (hierarchy : Hierarchy) (id : Uuid) : List Uuid :=
  hierarchy.climb (hierarchy.store.count hierarchy.entity) [id] id

/-- The records below those that wait, level by level. Only records of the entity and the first
one ever wait, so the number of those bounds the steps. -/
def descend (hierarchy : Hierarchy) : (steps : Nat) → (seen waiting : List Uuid) → List Uuid
  | 0, _, _ => []
  | _ + 1, _, [] => []
  | steps + 1, seen, id :: waiting =>
    let found := (hierarchy.children id).filter fun child => !seen.contains child
    found ++ hierarchy.descend steps (seen ++ found) (waiting ++ found)

def descendants (hierarchy : Hierarchy) (id : Uuid) : List Uuid :=
  hierarchy.descend (hierarchy.store.count hierarchy.entity + 1) [id] [id]

end Hierarchy

end RecordQuery
