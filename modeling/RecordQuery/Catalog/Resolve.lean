import RecordQuery.Calendar.Fiscal
import RecordQuery.Catalog.Metadata
import RecordQuery.Catalog.Schema

/-!
Catalogs, and what the name of a column stands for in them. The schema of an entity goes before its
metadata.
-/

namespace RecordQuery

structure Catalog where
  schemas : List Schema
  entities : List EntityMetadata
  hierarchies : List (String × String)
  fiscal : FiscalSettings
  offset : UtcOffset
  deriving DecidableEq

inductive ColumnSource where
  | direct
  | nameOf (base : String)
  deriving DecidableEq, Repr

structure ResolvedColumn where
  entity : String
  name : String
  type : AttributeType
  source : ColumnSource
  deriving DecidableEq, Repr

namespace Catalog

def empty : Catalog := ⟨[], [], [], .default, .zero⟩

instance : Inhabited Catalog := ⟨empty⟩

def withSchema (catalog : Catalog) (schema : Schema) : Catalog :=
  { catalog with schemas := schema :: catalog.schemas }

def withEntity (catalog : Catalog) (entity : EntityMetadata) : Catalog :=
  { catalog with entities := entity :: catalog.entities }

def withHierarchy (catalog : Catalog) (entity parentColumn : String) : Catalog :=
  { catalog with hierarchies := (entity, parentColumn) :: catalog.hierarchies }

def schema? (catalog : Catalog) (entity : String) : Option Schema :=
  catalog.schemas.find? (·.name == entity)

def metadata? (catalog : Catalog) (entity : String) : Option EntityMetadata :=
  catalog.entities.find? (·.name == entity)

def parentColumn? (catalog : Catalog) (entity : String) : Option String :=
  catalog.hierarchies.lookup entity

def knows (catalog : Catalog) (entity : String) : Bool :=
  (catalog.schema? entity).isSome || (catalog.metadata? entity).isSome

def primaryId (catalog : Catalog) (entity : String) : Except Error String :=
  match catalog.schema? entity, catalog.metadata? entity with
  | some schema, _ => .ok schema.primaryId
  | none, some metadata => .ok metadata.primaryId
  | none, none => .error (.name (.unknownEntity entity))

def attributeType? (catalog : Catalog) (entity name : String) :
    Option (Except Error AttributeType) :=
  match catalog.schema? entity, catalog.metadata? entity with
  | some schema, _ => (schema.attribute? name).map fun declared => .ok declared.type.attributeType
  | none, some metadata =>
    (metadata.attribute? name).map fun recorded =>
      match recorded.code.attributeType? with
      | some type => .ok type
      | none => .error (.type name recorded.code)
  | none, none => none

def referenceBase? (catalog : Catalog) (entity name : String) : Option String :=
  let chars := name.toList
  let base := String.ofList (chars.take (chars.length - 4))
  if ['n', 'a', 'm', 'e'].isSuffixOf chars ∧ 4 < chars.length then
    match catalog.attributeType? entity base with
    | some (.ok .reference) => some base
    | _ => none
  else
    none

def resolve (catalog : Catalog) (entity name : String) : Except Error ResolvedColumn :=
  if !catalog.knows entity then .error (.name (.unknownEntity entity))
  else
    match catalog.attributeType? entity name with
    | some (.ok type) => .ok ⟨entity, name, type, .direct⟩
    | some (.error fault) => .error fault
    | none =>
      match catalog.referenceBase? entity name with
      | some base => .ok ⟨entity, name, .text, .nameOf base⟩
      | none => .error (.name (.unknownAttribute entity name))

end Catalog

end RecordQuery
