import RecordQuery.Query.Column
import RecordQuery.Query.Filter

namespace RecordQuery

/-- The kinds of a link. The last four keep or drop a row by the records that it is linked to, and
add nothing to it. -/
inductive JoinKind where
  | inner
  | leftOuter
  | any
  | notAny
  | all
  | notAll
  deriving DecidableEq, Repr

namespace JoinKind

def kinds : List JoinKind := [inner, leftOuter, any, notAny, all, notAll]

def isExistential : JoinKind → Bool
  | .inner | .leftOuter => false
  | _ => true

def name : JoinKind → String
  | .inner => "Inner"
  | .leftOuter => "LeftOuter"
  | .any => "Any"
  | .notAny => "NotAny"
  | .all => "All"
  | .notAll => "NotAll"

def keyword : JoinKind → String
  | .inner => "inner"
  | .leftOuter => "outer"
  | .any => "any"
  | .notAny => "not any"
  | .all => "all"
  | .notAll => "not all"

def ofName? (name : String) : Option JoinKind :=
  kinds.find? (·.name == name)

def ofKeyword? (keyword : String) : Option JoinKind :=
  let lowered := Text.lowercaseASCII keyword
  if lowered = "exists" ∨ lowered = "in" then some .any
  else kinds.find? (·.keyword == lowered)

end JoinKind

structure Link where
  source : String
  entity : String
  target : String
  kind : JoinKind
  alias? : Option String
  columns : ColumnSet
  filter : Filter
  orders : List OrderBy
  links : List Link

namespace Link

mutual

def same : Link → Link → Bool
  | ⟨source₁, entity₁, target₁, kind₁, alias₁, columns₁, filter₁, orders₁, links₁⟩,
    ⟨source₂, entity₂, target₂, kind₂, alias₂, columns₂, filter₂, orders₂, links₂⟩ =>
    source₁ == source₂ && entity₁ == entity₂ && target₁ == target₂ && kind₁ == kind₂ &&
      alias₁ == alias₂ && columns₁ == columns₂ && filter₁.same filter₂ && orders₁ == orders₂ &&
      sameAll links₁ links₂

def sameAll : List Link → List Link → Bool
  | [], [] => true
  | a :: as, b :: bs => a.same b && sameAll as bs
  | _, _ => false

end

mutual

def explicitAliases : Link → List String
  | ⟨_, _, _, _, alias?, _, _, _, links⟩ => alias?.toList ++ explicitAliasesAll links

def explicitAliasesAll : List Link → List String
  | [] => []
  | link :: rest => link.explicitAliases ++ explicitAliasesAll rest

end

end Link

end RecordQuery
