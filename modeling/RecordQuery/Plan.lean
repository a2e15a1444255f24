import RecordQuery.Alias
import RecordQuery.Catalog.Resolve
import RecordQuery.Query.Description

namespace RecordQuery

structure PlannedLink where
  aliasName : String
  link : Link
  children : List PlannedLink

namespace PlannedLink

mutual

def aliases : PlannedLink → List (String × String)
  | ⟨aliasName, link, children⟩ => (aliasName, link.entity) :: aliasesAll children

def aliasesAll : List PlannedLink → List (String × String)
  | [] => []
  | planned :: rest => planned.aliases ++ aliasesAll rest

end

mutual

/-- The links whose records become part of the rows, outer ones first. Below an existential link
there are none. -/
def merged : PlannedLink → List PlannedLink
  | ⟨aliasName, link, children⟩ =>
    if link.kind.isExistential then [] else ⟨aliasName, link, children⟩ :: mergedAll children

def mergedAll : List PlannedLink → List PlannedLink
  | [] => []
  | planned :: rest => planned.merged ++ mergedAll rest

end

end PlannedLink

structure Plan where
  root : String
  primaryId : String
  links : List PlannedLink

namespace Plan

def aliases (plan : Plan) : List (String × String) := PlannedLink.aliasesAll plan.links

def mergedLinks (plan : Plan) : List PlannedLink := PlannedLink.mergedAll plan.links

mutual

def planLink (catalog : Catalog) (parent : String) (taken : Aliases) :
    Link → Except Error (PlannedLink × Aliases)
  | ⟨source, entity, target, kind, alias?, columns, filter, orders, links⟩ => do
    if !catalog.knows entity then
      throw (.name (.unknownEntity entity))
    let _ ← catalog.resolve parent source
    let _ ← catalog.resolve entity target
    let (aliasName, named) := taken.allocateMissing alias? entity
    let (children, after) ← planLinks catalog entity named links
    return (⟨aliasName, ⟨source, entity, target, kind, alias?, columns, filter, orders, links⟩,
      children⟩, after)

def planLinks (catalog : Catalog) (parent : String) (taken : Aliases) :
    List Link → Except Error (List PlannedLink × Aliases)
  | [] => return ([], taken)
  | link :: rest => do
    let (planned, after) ← planLink catalog parent taken link
    let (others, last) ← planLinks catalog parent after rest
    return (planned :: others, last)

end

def ofQuery (catalog : Catalog) (query : Query) : Except Error Plan := do
  if !catalog.knows query.entity then
    throw (.name (.unknownEntity query.entity))
  let primaryId ← catalog.primaryId query.entity
  let (reserved, outcome) := Aliases.empty.reserveAll (Link.explicitAliasesAll query.links)
  outcome
  let (links, _) ← planLinks catalog query.entity reserved query.links
  return ⟨query.entity, primaryId, links⟩

end Plan

end RecordQuery
