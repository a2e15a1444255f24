import RecordQuery.Alias
import RecordQuery.Record

namespace RecordQuery

structure SchemaAttribute where
  name : String
  type : DeclaredType
  deriving DecidableEq, Repr

structure Schema where
  name : String
  primaryId : String
  attributes : List SchemaAttribute
  deriving DecidableEq, Repr

def Schema.attribute? (schema : Schema) (name : String) : Option SchemaAttribute :=
  schema.attributes.find? (·.name == name)

structure SchemaBuilder where
  name : String
  primaryId? : Option String
  attributes : List SchemaAttribute
  deriving DecidableEq, Repr

namespace SchemaBuilder

def checkName (name : String) : Except Error Unit :=
  match name.toList with
  | [] => .error (.invalid .emptyName)
  | c :: rest =>
    if !isNameStart c then .error (.invalid (.nameStart name))
    else if !rest.all isNameChar then .error (.invalid (.nameCharacters name))
    else .ok ()

def start (name : String) : Except Error SchemaBuilder := do
  checkName name
  return ⟨name, none, []⟩

def declare (builder : SchemaBuilder) (name : String) (type : DeclaredType) :
    Except Error SchemaBuilder := do
  checkName name
  if builder.attributes.any (·.name == name) then
    throw (.invalid (.repeatedAttribute name))
  return { builder with attributes := builder.attributes ++ [⟨name, type⟩] }

def setPrimaryId (builder : SchemaBuilder) (name : String) : Except Error SchemaBuilder := do
  checkName name
  return { builder with primaryId? := some name }

def build (builder : SchemaBuilder) : Schema :=
  let primaryId := builder.primaryId?.getD (Record.defaultIdName builder.name)
  let declared := builder.attributes.any (·.name == primaryId)
  ⟨builder.name, primaryId,
    if declared then builder.attributes else builder.attributes ++ [⟨primaryId, .uuid⟩]⟩

end SchemaBuilder

end RecordQuery
