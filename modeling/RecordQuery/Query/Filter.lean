import RecordQuery.Query.Operator
import RecordQuery.Value.Basic

namespace RecordQuery

/-- A condition on a column of the entity that owns it, or of the link with the alias. A condition
that is outer holds of every row. -/
structure Condition where
  column : String
  alias? : Option String
  operator : Operator
  values : List Value
  other? : Option String
  outer : Bool

namespace Condition

def derive (condition : Condition) (operator : Operator) (values : List Value) : Condition :=
  { condition with operator, values, other? := none }

def same (a b : Condition) : Bool :=
  a.column == b.column && a.alias? == b.alias? && a.operator == b.operator &&
    Value.sameAll a.values b.values && a.other? == b.other? && a.outer == b.outer

end Condition

inductive Connective where
  | and
  | or
  deriving DecidableEq, Repr

namespace Connective

def keyword : Connective → String
  | .and => "and"
  | .or => "or"

def ofKeyword? (keyword : String) : Option Connective :=
  [and, or].find? (·.keyword == Text.lowercaseASCII keyword)

end Connective

structure Filter where
  connective : Connective
  conditions : List Condition
  filters : List Filter

namespace Filter

def all : Filter := ⟨.and, [], []⟩

instance : Inhabited Filter := ⟨all⟩

mutual

def isEmpty : Filter → Bool
  | ⟨_, conditions, filters⟩ => conditions.isEmpty && allEmpty filters

def allEmpty : List Filter → Bool
  | [] => true
  | filter :: rest => filter.isEmpty && allEmpty rest

end

mutual

def relaxed : Filter → Filter
  | ⟨connective, conditions, filters⟩ =>
    ⟨connective, conditions.map fun condition => { condition with outer := true },
      relaxedAll filters⟩

def relaxedAll : List Filter → List Filter
  | [] => []
  | filter :: rest => filter.relaxed :: relaxedAll rest

end

def sameConditions : List Condition → List Condition → Bool
  | [], [] => true
  | a :: as, b :: bs => a.same b && sameConditions as bs
  | _, _ => false

mutual

def same : Filter → Filter → Bool
  | ⟨connective₁, conditions₁, filters₁⟩, ⟨connective₂, conditions₂, filters₂⟩ =>
    connective₁ == connective₂ && sameConditions conditions₁ conditions₂ &&
      sameAll filters₁ filters₂

def sameAll : List Filter → List Filter → Bool
  | [], [] => true
  | a :: as, b :: bs => a.same b && sameAll as bs
  | _, _ => false

end

end Filter

end RecordQuery
