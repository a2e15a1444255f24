import RecordQuery.Proofs.Carrying
import RecordQuery.Proofs.Predicate.Congruence

namespace RecordQuery

def Context.withStore (context : Context) (store : Store) : Context := { context with store }

structure Predicate.Congruence (R : Predicate → Predicate → Prop) : Prop where
  refl : ∀ p, R p p
  combine : ∀ connective parts others, List.Forall₂ R parts others →
    R (Filter.combine connective parts) (Filter.combine connective others)

def Context.KinAlike (context : Context) (store : Store) (R : Predicate → Predicate → Prop) :
    Prop :=
  ∀ (accessor : Accessor) (entity column : String) (kinship : Kinship) (id : Uuid),
    R (.value accessor (.idIn (Condition.kinOf ⟨context.store, entity, column⟩ kinship id))
        (kinship == .notUnder) none)
      (.value accessor (.idIn (Condition.kinOf ⟨store, entity, column⟩ kinship id))
        (kinship == .notUnder) none)

section OtherStore

variable {R : Predicate → Predicate → Prop} {context : Context} {store : Store}

namespace Condition

variable (condition : Condition) (accessor : Accessor)

theorem compileKinship_withStore (hkin : context.KinAlike store R) (entity : String)
    (kinship : Kinship) (values : List Value) :
    Carries True R (condition.compileKinship context entity accessor kinship values)
      (condition.compileKinship (context.withStore store) entity accessor kinship values) := by
  have hcatalog : (context.withStore store).catalog = context.catalog := rfl
  unfold compileKinship
  rw [hcatalog]
  cases context.catalog.parentColumn? entity with
  | none => exact Carries.of_error _
  | some column =>
    cases values.head?.bind operandId? with
    | none => exact Carries.of_error _
    | some id => exact Carries.of_ok (hkin accessor entity column kinship id)

theorem compileAttribute_withStore (hR : Predicate.Congruence R) (hkin : context.KinAlike store R)
    (scope : Scope) (values : List Value) :
    Carries True R (condition.compileAttribute context scope accessor values)
      (condition.compileAttribute (context.withStore store) scope accessor values) := by
  have hsame {first second : Except Error Predicate} (h : second = first) :
      Carries True R first second := (Carries.of_eq h).imp fun p _ heq => heq ▸ hR.refl p
  have hkinship := condition.compileKinship_withStore accessor hkin scope.entity
  obtain ⟨column, alias?, operator, operands, other?, outer⟩ := condition
  cases operator with
  | kin kinship => exact hkinship kinship values
  | _ => exact hsame rfl

theorem compile_withStore (hR : Predicate.Congruence R) (hkin : context.KinAlike store R)
    (aliases : AliasMap) (scope : Scope) :
    Carries True R (condition.compile context aliases scope)
      (condition.compile (context.withStore store) aliases scope) := by
  have hsame {first second : Except Error Predicate} (h : second = first) :
      Carries True R first second := (Carries.of_eq h).imp fun p _ heq => heq ▸ hR.refl p
  unfold compile
  cases condition.outer with
  | true => exact hsame rfl
  | false =>
    apply (Carries.of_eq rfl).bind
    rintro target _ rfl
    apply (Carries.of_eq rfl).bind
    rintro accessor _ rfl
    cases condition.other? with
    | some other => exact hsame rfl
    | none =>
      dsimp only
      rw [compileOperands_eq, compileOperands_eq]
      split
      · split
        · exact hsame rfl
        · exact condition.compileAttribute_withStore accessor hR hkin target _
      · exact Carries.of_error _

end Condition

namespace Filter

mutual

theorem compile_withStore (hR : Predicate.Congruence R) (hkin : context.KinAlike store R)
    (aliases : AliasMap) (scope : Scope) : (filter : Filter) →
    Carries True R (filter.compile context aliases scope)
      (filter.compile (context.withStore store) aliases scope)
  | ⟨connective, conditions, filters⟩ => by
    simp only [compile]
    have hown : Carries True (List.Forall₂ R)
        (conditions.mapM fun condition => condition.compile context aliases scope)
        (conditions.mapM fun condition =>
          condition.compile (context.withStore store) aliases scope) := by
      apply Carries.mapM
      rw [List.forall₂_same]
      exact fun condition _ => condition.compile_withStore hR hkin aliases scope
    apply hown.bind
    intro own others hown
    apply (compileAll_withStore hR hkin aliases scope filters).bind
    intro inner rest hinner
    exact Carries.of_ok (hR.combine connective _ _ (List.rel_append hown hinner))

theorem compileAll_withStore (hR : Predicate.Congruence R) (hkin : context.KinAlike store R)
    (aliases : AliasMap) (scope : Scope) : (filters : List Filter) →
    Carries True (List.Forall₂ R) (compileAll context aliases scope filters)
      (compileAll (context.withStore store) aliases scope filters)
  | [] => Carries.of_ok .nil
  | filter :: rest => by
    simp only [compileAll]
    apply (compile_withStore hR hkin aliases scope filter).bind
    intro p q hpq
    apply (compileAll_withStore hR hkin aliases scope rest).bind
    intro ps qs hpqs
    exact Carries.of_ok (.cons hpq hpqs)

end

end Filter

end OtherStore

end RecordQuery
