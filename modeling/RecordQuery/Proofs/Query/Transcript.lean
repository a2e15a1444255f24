import RecordQuery.Catalog.Resolve
import RecordQuery.Proofs.Query.Revision
import RecordQuery.Proofs.Value.OperandTexts

namespace RecordQuery

def Operator.transcript : Operator → Operator
  | .text .contains negated => .text .like negated
  | operator => operator

namespace Condition

def transcript (condition : Condition) : Condition :=
  { condition with
    operator := condition.operator.transcript
    values :=
      if condition.other?.isSome then []
      else (Value.operandTextsAll condition.values).map fun text =>
        .text (condition.operator.written.2 text) }

def withTexts (condition : Condition) : Condition :=
  { condition with values := (Value.operandTextsAll condition.values).map .text }

end Condition

namespace Filter

mutual

def transcript : Filter → Filter
  | ⟨connective, conditions, filters⟩ =>
    ⟨connective, conditions.map Condition.transcript, transcriptAll filters⟩

def transcriptAll : List Filter → List Filter
  | [] => []
  | filter :: rest => filter.transcript :: transcriptAll rest

end

end Filter

def Query.transcript (query : Query) : Query := query.revise Filter.transcript id

def Operator.comparesAny : Operator → Bool
  | .compare .equal | .compare .notEqual | .oneOf _ => true
  | _ => false

def Operator.counts : Operator → Bool
  | .span _ _ | .olderThan _ | .fiscalSpan _ _ | .inFiscalYear | .inFiscalPeriod
  | .fiscalPeriodAndYear _ => true
  | _ => false

def Operator.keeps (operator : Operator) (type : AttributeType) (value : Value) : Prop :=
  match operator with
  | .compare .equal | .compare .notEqual | .oneOf _ => value.isOperand type = true
  | .compare _ | .between _ | .on _ | .onOrAfter | .onOrBefore => value.suits type = true
  | .text _ _ => value.operandTexts = [value.display]
  | operator => operator.counts = true → value.suits .int = true

/-- The texts of the operands stand for them, beside an attribute of the type: there are as many as
the operator takes, each stands for its operand, and the first of them decides as the first operand
does whether references are compared by name, where that makes a difference. -/
structure Condition.Survives (type : AttributeType) (condition : Condition) : Prop where
  count : condition.operator.arity.accepts
    (Value.operandTextsAll condition.values).length = true
  kept : type ≠ .options → ∀ value ∈ Value.flattenAll condition.values,
    condition.operator.keeps type value
  names : type ≠ .options → condition.operator.comparesAny = true →
    Value.namesReference ((Value.operandTextsAll condition.values).head?.map .text) =
        Value.namesReference (Value.flattenAll condition.values).head? ∨
      ∀ value ∈ Value.flattenAll condition.values,
        ∀ scalar ∈ value.scalar? type (some value), scalar.isName = false

/-- The texts of a condition stand for its operands, wherever its column can be found: in the entity
that owns the filter, or in that of a link with the alias. -/
def Query.SurvivesAt (query : Query) (catalog : Catalog) (owner : String) (condition : Condition) :
    Prop :=
  condition.other?.isSome = true ∨ ∀ entity column,
    (match condition.alias? with
      | none => entity = owner
      | some aliasName =>
        ∃ link ∈ Link.withinAll query.links, link.alias? = some aliasName ∧ entity = link.entity) →
    catalog.resolve entity condition.column = .ok column → condition.Survives column.type

structure Query.Survives (catalog : Catalog) (query : Query) : Prop where
  criteria : ∀ condition ∈ query.criteria.conditionsWithin,
    query.SurvivesAt catalog query.entity condition
  links : ∀ link ∈ Link.withinAll query.links, ∀ condition ∈ link.filter.conditionsWithin,
    query.SurvivesAt catalog link.entity condition

end RecordQuery
