import RecordQuery.Catalog.Metadata
import RecordQuery.Encoding.Basic

namespace RecordQuery

open Encoded (defaulted? needed? parts?)

namespace AttributeMetadata

def encode (recorded : AttributeMetadata) : Encoded :=
  .fields [("logical_name", .text recorded.name), ("type_code", .text recorded.code.name),
    ("targets", .list (recorded.targets.map .text))]

def decode? (data : Encoded) : Option AttributeMetadata := do
  match ← parts? ["logical_name", "type_code", "targets"] data with
  | [name?, code?, targets?] =>
    return ⟨← needed? Encoded.text? name?, ← needed? (Encoded.choice? TypeCode.ofName?) code?,
      ← defaulted? [] (Encoded.list? Encoded.text?) targets?⟩
  | _ => none

end AttributeMetadata

namespace EntityMetadata

def encode (entity : EntityMetadata) : Encoded :=
  .fields [("logical_name", .text entity.name), ("primary_id_attribute", .text entity.primaryId),
    ("attributes", .fields (entity.attributes.map fun (name, recorded) =>
      (name, recorded.encode)))]

def decode? (data : Encoded) : Option EntityMetadata := do
  match ← parts? ["logical_name", "primary_id_attribute", "attributes"] data with
  | [name?, primaryId?, attributes?] =>
    return ⟨← needed? Encoded.text? name?, ← needed? Encoded.text? primaryId?,
      ← defaulted? [] (Encoded.entries? AttributeMetadata.decode?) attributes?⟩
  | _ => none

end EntityMetadata

end RecordQuery
