import Mathlib.Data.List.TakeWhile
import RecordQuery.Predicate.Compile
import RecordQuery.Proofs.Outcome
import RecordQuery.Proofs.Predicate.Connectives
import RecordQuery.Proofs.Query.Within

namespace RecordQuery

namespace Accessor

def mapKeys (f : String → String) (accessor : Accessor) : Accessor :=
  { accessor with key := f accessor.key, referenceKey? := accessor.referenceKey?.map f }

@[simp] theorem mapKeys_type (f : String → String) (accessor : Accessor) :
    (accessor.mapKeys f).type = accessor.type := rfl

theorem ofColumn_qualify (aliasName : String) (column : ResolvedColumn) :
    ofColumn (some aliasName) column =
      (ofColumn none column).mapKeys (Record.qualify aliasName) := by
  unfold ofColumn mapKeys
  cases column.source <;> rfl

section Read

variable {f g : String → String} {record other : Record}
  (h : ∀ key, record.getUnwrapped? (f key) = other.getUnwrapped? (g key))

include h

theorem read?_mapKeys (accessor : Accessor) :
    (accessor.mapKeys f).read? record = (accessor.mapKeys g).read? other := by
  unfold read? mapKeys
  simp only [h]
  cases accessor.referenceKey? with
  | none => rfl
  | some key => simp only [Option.map_some, Option.bind_some, h]

theorem readPresent?_mapKeys (accessor : Accessor) :
    (accessor.mapKeys f).readPresent? record = (accessor.mapKeys g).readPresent? other := by
  simp only [readPresent?, read?_mapKeys h]

end Read

end Accessor

namespace Predicate

mutual

def mapKeys (f : String → String) : Predicate → Predicate
  | .constant holds => .constant holds
  | .not inner => .not (inner.mapKeys f)
  | .and parts => .and (mapKeysAll f parts)
  | .or parts => .or (mapKeysAll f parts)
  | .value accessor test negated sample? => .value (accessor.mapKeys f) test negated sample?
  | .isNull accessor negated => .isNull (accessor.mapKeys f) negated
  | .like accessor pattern negated => .like (accessor.mapKeys f) pattern negated
  | .columns left right comparison => .columns (left.mapKeys f) (right.mapKeys f) comparison

def mapKeysAll (f : String → String) : List Predicate → List Predicate
  | [] => []
  | part :: rest => part.mapKeys f :: mapKeysAll f rest

end

theorem mapKeysAll_eq_map (f : String → String) (parts : List Predicate) :
    mapKeysAll f parts = parts.map (mapKeys f) := by
  induction parts with
  | nil => rfl
  | cons part rest ih => rw [mapKeysAll, List.map_cons, ih]

section Admits

variable {f g : String → String} {record other : Record}

mutual

theorem admits_mapKeys (h : ∀ key, record.getUnwrapped? (f key) = other.getUnwrapped? (g key)) :
    (predicate : Predicate) →
    (predicate.mapKeys f).admits record = (predicate.mapKeys g).admits other
  | .constant holds => rfl
  | .not inner => by
    simp only [mapKeys, admits, admits_mapKeys h inner]
  | .and parts => by
    simp only [mapKeys, admits]
    exact allAdmit_mapKeys h parts
  | .or parts => by
    simp only [mapKeys, admits]
    exact anyAdmits_mapKeys h parts
  | .value accessor test negated sample? => by
    simp only [mapKeys, admits, scalarOf, Accessor.readPresent?_mapKeys h, Accessor.mapKeys_type]
  | .isNull accessor negated => by
    simp only [mapKeys, admits, Accessor.read?_mapKeys h]
  | .like accessor pattern negated => by
    simp only [mapKeys, admits, Accessor.read?_mapKeys h]
  | .columns left right comparison => by
    simp only [mapKeys, admits, columnOrder?, Accessor.read?_mapKeys h, Accessor.mapKeys_type]

theorem allAdmit_mapKeys (h : ∀ key, record.getUnwrapped? (f key) = other.getUnwrapped? (g key)) :
    (parts : List Predicate) →
    allAdmit (mapKeysAll f parts) record = allAdmit (mapKeysAll g parts) other
  | [] => rfl
  | part :: rest => by
    simp only [mapKeysAll, allAdmit, admits_mapKeys h part, allAdmit_mapKeys h rest]

theorem anyAdmits_mapKeys
    (h : ∀ key, record.getUnwrapped? (f key) = other.getUnwrapped? (g key)) : (parts : List Predicate) →
    anyAdmits (mapKeysAll f parts) record = anyAdmits (mapKeysAll g parts) other
  | [] => rfl
  | part :: rest => by
    simp only [mapKeysAll, anyAdmits, admits_mapKeys h part, anyAdmits_mapKeys h rest]

end

end Admits

mutual

theorem mapKeys_id : (predicate : Predicate) → predicate.mapKeys (fun key => key) = predicate
  | .constant holds => rfl
  | .not inner => by
    rw [mapKeys, mapKeys_id inner]
  | .and parts => by
    rw [mapKeys, mapKeysAll_id parts]
  | .or parts => by
    rw [mapKeys, mapKeysAll_id parts]
  | .value accessor test negated sample? => by
    simp [mapKeys, Accessor.mapKeys]
  | .isNull accessor negated => by
    simp [mapKeys, Accessor.mapKeys]
  | .like accessor pattern negated => by
    simp [mapKeys, Accessor.mapKeys]
  | .columns left right comparison => by
    simp [mapKeys, Accessor.mapKeys]

theorem mapKeysAll_id : (parts : List Predicate) → mapKeysAll (fun key => key) parts = parts
  | [] => rfl
  | part :: rest => by
    rw [mapKeysAll, mapKeys_id part, mapKeysAll_id rest]

end

@[simp] theorem isTrue_mapKeys (f : String → String) (predicate : Predicate) :
    (predicate.mapKeys f).isTrue = predicate.isTrue := by
  cases predicate <;> rfl

theorem conjunction_mapKeys (f : String → String) (parts : List Predicate) :
    conjunction (parts.map (mapKeys f)) = (conjunction parts).mapKeys f := by
  have hfilter : (parts.map (mapKeys f)).filter (fun part => !part.isTrue) =
      (parts.filter fun part => !part.isTrue).map (mapKeys f) := by
    rw [List.filter_map]
    congr 1
    exact List.filter_congr fun part _ => by simp
  unfold conjunction
  rw [hfilter]
  generalize parts.filter (fun part => !part.isTrue) = kept
  rcases kept with _ | ⟨first, _ | ⟨second, rest⟩⟩
  · rfl
  · rfl
  · simp only [List.map_cons, mapKeys, mapKeysAll, mapKeysAll_eq_map]

theorem disjunction_mapKeys (f : String → String) (parts : List Predicate) :
    disjunction (parts.map (mapKeys f)) = (disjunction parts).mapKeys f := by
  rcases parts with _ | ⟨first, _ | ⟨second, rest⟩⟩
  · rfl
  · rfl
  · simp only [disjunction, List.map_cons, mapKeys, mapKeysAll, mapKeysAll_eq_map]

end Predicate

namespace Condition

variable (f : String → String) (condition : Condition) (accessor : Accessor)

theorem compileOptions_mapKeys :
    condition.compileOptions (accessor.mapKeys f) =
      (condition.compileOptions accessor).map (Predicate.mapKeys f) := by
  have hequal : ∀ negated : Bool,
      (do
        let codes ← Value.operandOptionSet condition.values
        if codes.isEmpty then return .constant false
        else return .value (accessor.mapKeys f) (.setEquals codes) negated none) =
      Except.map (Predicate.mapKeys f) (do
        let codes ← Value.operandOptionSet condition.values
        if codes.isEmpty then return .constant false
        else return .value accessor (.setEquals codes) negated none) := by
    intro negated
    cases Value.operandOptionSet condition.values with
    | error fault => rfl
    | ok codes =>
      simp only [ok_bind]
      split <;> rfl
  unfold compileOptions
  split
  · rfl
  · exact hequal false
  · exact hequal true
  · exact hequal _
  · cases Value.operandOptionSet condition.values <;> rfl
  · rfl

theorem compileKinship_mapKeys (context : Context) (entity : String) (kinship : Kinship)
    (values : List Value) :
    condition.compileKinship context entity (accessor.mapKeys f) kinship values =
      (condition.compileKinship context entity accessor kinship values).map
        (Predicate.mapKeys f) := by
  unfold compileKinship
  cases context.catalog.parentColumn? entity with
  | none => rfl
  | some parentColumn =>
    simp only
    cases values.head?.bind operandId? <;> rfl

theorem compileAnyOf_mapKeys (values : List Value) (negated : Bool) :
    compileAnyOf (accessor.mapKeys f) values negated =
      (compileAnyOf accessor values negated).mapKeys f := by
  unfold compileAnyOf
  simp only [Accessor.mapKeys_type]
  cases values.filterMap fun value => value.scalar? accessor.type (some value) <;> rfl

theorem compileComparison_mapKeys (comparison : Comparison) (operand : Value) :
    compileComparison (accessor.mapKeys f) comparison operand =
      (compileComparison accessor comparison operand).mapKeys f := by
  unfold compileComparison
  simp only [Accessor.mapKeys_type]
  cases operand.scalar? accessor.type (some operand) <;> rfl

theorem compileRange_mapKeys (negated widened : Bool) (low high : Value) :
    compileRange (accessor.mapKeys f) negated widened low high =
      (compileRange accessor negated widened low high).map (Predicate.mapKeys f) := by
  unfold compileRange
  simp only [Accessor.mapKeys_type]
  cases high.scalar? accessor.type (some high) with
  | none => cases low.scalar? accessor.type (some low) <;> rfl
  | some upper =>
    cases widened with
    | false => cases low.scalar? accessor.type (some low) <;> rfl
    | true =>
      simp only [if_true]
      cases wholeDay upper with
      | error fault => rfl
      | ok last => cases low.scalar? accessor.type (some low) <;> rfl

theorem compileDay_mapKeys (offset : UtcOffset) (test : DayTest) (negated : Bool)
    (operand : Value) :
    condition.compileDay offset (accessor.mapKeys f) test negated operand =
      (condition.compileDay offset accessor test negated operand).map (Predicate.mapKeys f) := by
  unfold compileDay
  split <;> rfl

theorem compileOperator_mapKeys (context : Context) (values : List Value) (isWindow : Bool) :
    condition.compileOperator context (accessor.mapKeys f) values isWindow =
      (condition.compileOperator context accessor values isWindow).map (Predicate.mapKeys f) := by
  unfold compileOperator
  simp only [compileAnyOf_mapKeys, compileComparison_mapKeys, compileRange_mapKeys,
    compileDay_mapKeys]
  split <;> rfl

theorem compileOperands_mapKeys (context : Context) (scope other : Scope)
    (hentity : scope.entity = other.entity) :
    condition.compileOperands context scope (accessor.mapKeys f) =
      (condition.compileOperands context other accessor).map (Predicate.mapKeys f) := by
  unfold compileOperands
  simp only [Accessor.mapKeys_type, compileOptions_mapKeys, compileKinship_mapKeys,
    compileOperator_mapKeys, hentity]
  split
  · rfl
  · split
    · rfl
    · split
      · rfl
      · split
        · rfl
        · split
          · rfl
          · cases condition.window? (Value.flattenAll condition.values) context.present with
            | error fault => rfl
            | ok derived? => cases derived? <;> rfl

def Unqualified : Prop :=
  condition.alias? = none ∧
    ∀ other, condition.other? = some other → Record.isQualified other = false

end Condition

section Qualify

variable {context : Context} {aliases : AliasMap} (entity aliasName : String)

theorem Scope.accessor_qualify (catalog : Catalog) (column : String) :
    (Scope.link entity aliasName).accessor catalog column =
      ((Scope.root entity).accessor catalog column).map
        (Accessor.mapKeys (Record.qualify aliasName)) := by
  unfold accessor link root
  cases catalog.resolve entity column with
  | error fault => rfl
  | ok resolved => exact congrArg Except.ok (Accessor.ofColumn_qualify aliasName resolved)

namespace Condition

theorem otherColumn_plain {other : String} (h : Record.isQualified other = false) (scope : Scope) :
    otherColumn aliases scope other = .ok (scope, other) := by
  have hrest : other.toList.dropWhile (· != '.') = [] := by
    rw [List.dropWhile_eq_nil_iff]
    intro c hc
    have hne : c ≠ '.' := by
      rintro rfl
      simp [Record.isQualified, hc] at h
    simpa using hne
  simp only [otherColumn, hrest]

theorem compileColumns_qualify (condition : Condition) (catalog : Catalog) (left : Accessor)
    {other : String} (h : Record.isQualified other = false) :
    condition.compileColumns catalog aliases (.link entity aliasName)
        (left.mapKeys (Record.qualify aliasName)) other =
      (condition.compileColumns catalog aliases (.root entity) left other).map
        (Predicate.mapKeys (Record.qualify aliasName)) := by
  unfold compileColumns
  simp only [otherColumn_plain h, ok_bind, Scope.accessor_qualify]
  split
  · cases (Scope.root entity).accessor catalog other <;> rfl
  · rfl

theorem compile_qualify {condition : Condition} (h : condition.Unqualified) :
    condition.compile context aliases (.link entity aliasName) =
      (condition.compile context aliases (.root entity)).map
        (Predicate.mapKeys (Record.qualify aliasName)) := by
  obtain ⟨halias, hother⟩ := h
  unfold compile
  simp only [halias, Scope.aliased, ok_bind, Scope.accessor_qualify]
  split
  · rfl
  · cases (Scope.root entity).accessor context.catalog condition.column with
    | error fault => rfl
    | ok accessor =>
      cases hcase : condition.other? with
      | some other => exact compileColumns_qualify entity aliasName _ _ _ (hother other hcase)
      | none => exact compileOperands_mapKeys _ condition accessor context _ _ rfl

theorem mapM_compile_qualify {conditions : List Condition}
    (h : ∀ condition ∈ conditions, condition.Unqualified) :
    (conditions.mapM fun condition : Condition =>
        condition.compile context aliases (.link entity aliasName)) =
      (conditions.mapM fun condition : Condition =>
        condition.compile context aliases (.root entity)).map
        (List.map (Predicate.mapKeys (Record.qualify aliasName))) := by
  induction conditions with
  | nil => rfl
  | cons condition rest ih =>
    rw [List.mapM_cons, List.mapM_cons, ih fun c hc => h c (List.mem_cons_of_mem _ hc),
      compile_qualify entity aliasName (h condition List.mem_cons_self)]
    cases condition.compile context aliases (.root entity) with
    | error fault => rfl
    | ok first =>
      cases rest.mapM fun other : Condition => other.compile context aliases (.root entity) <;> rfl

end Condition

namespace Filter

theorem combine_mapKeys (f : String → String) (connective : Connective) (parts : List Predicate) :
    combine connective (parts.map (Predicate.mapKeys f)) =
      (combine connective parts).mapKeys f := by
  cases connective with
  | and => exact Predicate.conjunction_mapKeys f parts
  | or => exact Predicate.disjunction_mapKeys f parts

mutual

theorem compile_qualify : (filter : Filter) →
    (∀ condition ∈ filter.conditionsWithin, condition.Unqualified) →
    filter.compile context aliases (.link entity aliasName) =
      (filter.compile context aliases (.root entity)).map
        (Predicate.mapKeys (Record.qualify aliasName))
  | ⟨connective, conditions, filters⟩, h => by
    simp only [conditionsWithin, List.mem_append] at h
    unfold compile
    rw [Condition.mapM_compile_qualify entity aliasName fun c hc => h c (Or.inl hc),
      compileAll_qualify filters fun c hc => h c (Or.inr hc)]
    cases conditions.mapM fun condition : Condition =>
      condition.compile context aliases (.root entity) with
    | error fault => rfl
    | ok own =>
      cases compileAll context aliases (.root entity) filters with
      | error fault => rfl
      | ok inner =>
        have hcombine := combine_mapKeys (Record.qualify aliasName) connective (own ++ inner)
        rw [List.map_append] at hcombine
        exact congrArg Except.ok hcombine

theorem compileAll_qualify : (filters : List Filter) →
    (∀ condition ∈ conditionsWithinAll filters, condition.Unqualified) →
    compileAll context aliases (.link entity aliasName) filters =
      (compileAll context aliases (.root entity) filters).map
        (List.map (Predicate.mapKeys (Record.qualify aliasName)))
  | [], _ => rfl
  | filter :: rest, h => by
    simp only [conditionsWithinAll, List.mem_append] at h
    unfold compileAll
    rw [compile_qualify filter fun c hc => h c (Or.inl hc),
      compileAll_qualify rest fun c hc => h c (Or.inr hc)]
    cases filter.compile context aliases (.root entity) with
    | error fault => rfl
    | ok first => cases compileAll context aliases (.root entity) rest <;> rfl

end

end Filter

end Qualify

end RecordQuery
