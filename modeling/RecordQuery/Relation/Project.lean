import RecordQuery.Relation.Basic

namespace RecordQuery

structure ProjectedColumn where
  column : String
  alias? : Option String
  deriving DecidableEq, Repr

inductive Selection where
  | all
  | columns (listed : List ProjectedColumn)
  | none
  deriving DecidableEq, Repr

structure Projection where
  entity : String
  primaryId : String
  root : Selection
  links : List (String × Selection)
  deriving DecidableEq, Repr

namespace Projection

def unqualify? (aliasName name : String) : Option String :=
  let lead := (Record.qualify aliasName "").toList
  if lead.isPrefixOf name.toList then some (String.ofList (name.toList.drop lead.length)) else none

def copyEntries (shown : Record) (entries : List (String × Value)) : Record :=
  entries.foldl (fun shown entry => shown.set entry.1 entry.2) shown

/-- Shows the row's own columns. Of a row of which nothing is asked for the identifier is shown. -/
def showRoot (projection : Projection) (record shown : Record) : Record :=
  match projection.root with
  | .all =>
    copyEntries shown (record.attributes.entries.filter fun entry => !Record.isQualified entry.1)
  | .columns listed =>
    listed.foldl (fun shown column =>
      match record.get? column.column, column.alias? with
      | some value, some aliasName =>
        shown.set aliasName (.aliased projection.entity column.column value)
      | some value, none => shown.set column.column value
      | none, _ => shown) shown
  | .none =>
    match record.get? projection.primaryId with
    | some value => shown.set projection.primaryId value
    | none => shown

def showLink (record : Record) (aliasName : String) (selection : Selection) (shown : Record) :
    Record :=
  match selection with
  | .all =>
    copyEntries shown (record.attributes.entries.filter fun entry =>
      match unqualify? aliasName entry.1 with
      | some name => !Record.isQualified name
      | none => false)
  | .columns listed =>
    listed.foldl (fun shown column =>
      let key := Record.qualify aliasName column.column
      match record.get? key with
      | some value => shown.set (column.alias?.getD key) value
      | none => shown) shown
  | .none => shown

def project (projection : Projection) (record : Record) : Record :=
  projection.links.foldl (fun shown link => showLink record link.1 link.2 shown)
    (projection.showRoot record ⟨record.entity, record.id, .empty⟩)

end Projection

def Relation.project (relation : Relation) (projection : Projection) : Relation :=
  relation.withRecords (relation.records.map projection.project)

end RecordQuery
