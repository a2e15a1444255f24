import RecordQuery.Catalog.AttributeType
import RecordQuery.Record

namespace RecordQuery

structure AttributeMetadata where
  name : String
  code : TypeCode
  targets : List String
  deriving DecidableEq, Repr

structure EntityMetadata where
  name : String
  primaryId : String
  attributes : List (String × AttributeMetadata)
  deriving DecidableEq, Repr

namespace EntityMetadata

def attribute? (entity : EntityMetadata) (name : String) : Option AttributeMetadata :=
  entity.attributes.lookup name

def withAttribute (entity : EntityMetadata) (name : String) (recorded : AttributeMetadata) :
    EntityMetadata :=
  { entity with
    attributes := entity.attributes.filter (·.1 != name) ++ [(name, recorded)] }

def ofName (name : String) : EntityMetadata :=
  let primaryId := Record.defaultIdName name
  ⟨name, primaryId, [(primaryId, ⟨primaryId, .uniqueIdentifier, []⟩)]⟩

def withCode (entity : EntityMetadata) (name : String) (code : TypeCode) : EntityMetadata :=
  entity.withAttribute name ⟨name, code, []⟩

def withLookup (entity : EntityMetadata) (name : String) (targets : List String) : EntityMetadata :=
  entity.withAttribute name ⟨name, .lookup, targets⟩

end EntityMetadata

end RecordQuery
