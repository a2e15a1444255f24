import RecordQuery.Proofs.Predicate.Alike
import RecordQuery.Proofs.Predicate.Congruence
import RecordQuery.Proofs.Predicate.Reading
import RecordQuery.Relation.Aggregate
import RecordQuery.Relation.Sort

namespace RecordQuery

namespace Accessor

variable {accessor : Accessor} {row : Record}

def base? (accessor : Accessor) (record : Record) : Option Value :=
  accessor.referenceKey?.bind record.getUnwrapped?

theorem read?_eq (accessor : Accessor) (row : Record) :
    accessor.read? row =
      (row.getUnwrapped? accessor.key).or ((accessor.base? row).bind referenceName?) := by
  unfold read? base?
  cases row.getUnwrapped? accessor.key with
  | some value => rfl
  | none => rw [Option.none_or, Option.bind_assoc]

theorem readPresent?_eq_none_iff :
    accessor.readPresent? row = none ↔
      accessor.read? row = none ∨ accessor.read? row = some .null := by
  unfold readPresent?
  cases accessor.read? row with
  | none => simp
  | some value => cases value <;> simp [Option.filter, Value.isNull]

theorem bind_readPresent? {β : Type} {f : Value → Option β} (hf : f .null = none) :
    (accessor.readPresent? row).bind f = (accessor.read? row).bind f := by
  unfold readPresent?
  cases accessor.read? row with
  | none => rfl
  | some value => cases value <;> simp [Option.filter, Value.isNull, hf]

theorem isNone_readPresent? :
    (accessor.readPresent? row).isNone = ((accessor.read? row).map Value.isNull).getD true := by
  unfold readPresent?
  cases accessor.read? row with
  | none => rfl
  | some value => cases value <;> rfl

theorem display_readPresent? :
    ((accessor.readPresent? row).map Value.display).getD "" =
      ((accessor.read? row).map Value.display).getD "" := by
  unfold readPresent?
  cases accessor.read? row with
  | none => rfl
  | some value => cases value <;> rfl

end Accessor

def Accessor.ReadsAlike (accessor : Accessor) (row other : Record) : Prop :=
  accessor.readPresent? other = accessor.readPresent? row

namespace Predicate

mutual

def accessors : Predicate → List Accessor
  | .constant _ => []
  | .not inner => inner.accessors
  | .and parts => accessorsAll parts
  | .or parts => accessorsAll parts
  | .value accessor _ _ _ => [accessor]
  | .isNull accessor _ => [accessor]
  | .like accessor _ _ => [accessor]
  | .columns left right _ => [left, right]

def accessorsAll : List Predicate → List Accessor
  | [] => []
  | part :: rest => part.accessors ++ accessorsAll rest

end

theorem columnOrder?_eq (left right : Accessor) (row : Record) :
    columnOrder? left right row = (left.readPresent? row).bind fun a =>
      (right.readPresent? row).bind fun b => (a.scalar? left.type none).bind fun x =>
        (b.scalar? right.type none).bind x.order? := by
  rw [Accessor.bind_readPresent?]
  · unfold columnOrder?
    congr 1
    funext a
    rw [Accessor.bind_readPresent?]
    · rfl
    · cases a.scalar? left.type none <;> rfl
  · cases right.readPresent? row <;> rfl

section Present

variable {row other : Record}

mutual

theorem admits_present : (predicate : Predicate) →
    (∀ accessor ∈ predicate.accessors, accessor.ReadsAlike row other) →
    predicate.admits other = predicate.admits row ∧ predicate.faults other = predicate.faults row
  | .constant holds, _ => ⟨rfl, rfl⟩
  | .not inner, h => by
    obtain ⟨hadmits, hfaults⟩ := admits_present inner h
    simp only [admits, faults, hadmits, hfaults, and_self]
  | .and parts, h => by
    obtain ⟨hadmits, hfaults, -⟩ := admits_presentAll parts h
    simp only [admits, faults, hadmits, hfaults.1, and_self]
  | .or parts, h => by
    obtain ⟨-, hfaults, hadmits⟩ := admits_presentAll parts h
    simp only [admits, faults, hadmits, hfaults.2, and_self]
  | .value accessor test negated sample?, h => by
    have hread := h accessor (List.mem_singleton_self accessor)
    have hscalar : scalarOf accessor sample? other = scalarOf accessor sample? row := by
      rw [scalarOf, hread, scalarOf]
    simp only [admits, faults, hscalar, and_self]
  | .isNull accessor negated, h => by
    have hread := h accessor (List.mem_singleton_self accessor)
    simp only [admits, faults, ← Accessor.isNone_readPresent?, and_true]
    rw [hread]
  | .like accessor pattern negated, h => by
    have hread := h accessor (List.mem_singleton_self accessor)
    simp only [admits, faults, ← Accessor.display_readPresent?, and_true]
    rw [hread]
  | .columns left right comparison, h => by
    have hleft := h left List.mem_cons_self
    have hright := h right (List.mem_cons_of_mem _ List.mem_cons_self)
    simp only [admits, faults, columnOrder?_eq, and_true]
    rw [hleft, hright]

theorem admits_presentAll : (parts : List Predicate) →
    (∀ accessor ∈ accessorsAll parts, accessor.ReadsAlike row other) →
    allAdmit parts other = allAdmit parts row ∧
      (faultsInAll parts other = faultsInAll parts row ∧
        faultsInAny parts other = faultsInAny parts row) ∧
      anyAdmits parts other = anyAdmits parts row
  | [], _ => ⟨rfl, ⟨rfl, rfl⟩, rfl⟩
  | part :: rest, h => by
    simp only [accessorsAll, List.mem_append] at h
    obtain ⟨hadmits, hfaults⟩ := admits_present part fun accessor hmem => h accessor (Or.inl hmem)
    obtain ⟨hall, ⟨hinAll, hinAny⟩, hany⟩ :=
      admits_presentAll rest fun accessor hmem => h accessor (Or.inr hmem)
    simp only [allAdmit, faultsInAll, faultsInAny, anyAdmits, hadmits, hfaults, hall, hinAll,
      hinAny, hany, and_self]

end

theorem alike_of_present {S : Record → Record → Prop} {predicate : Predicate}
    (h : ∀ accessor ∈ predicate.accessors, ∀ row other, S row other →
      accessor.ReadsAlike row other) : Alike S predicate predicate :=
  fun row other hS => admits_present predicate fun accessor hmem => h accessor hmem row other hS

end Present

theorem mem_accessorsAll {parts : List Predicate} {accessor : Accessor} :
    accessor ∈ accessorsAll parts ↔ ∃ part ∈ parts, accessor ∈ part.accessors := by
  induction parts with
  | nil => simp [accessorsAll]
  | cons part rest ih => simp [accessorsAll, ih]

theorem exists_of_mem_conjunction {parts : List Predicate} {accessor : Accessor}
    (h : accessor ∈ (conjunction parts).accessors) :
    ∃ part ∈ parts, accessor ∈ part.accessors := by
  have hfilter : ∀ part ∈ parts.filter (fun part => !part.isTrue), part ∈ parts :=
    fun part hpart => (List.mem_filter.mp hpart).1
  unfold conjunction at h
  split at h
  · contradiction
  · rename_i part hone
    exact ⟨part, hfilter part (by rw [hone]; exact List.mem_cons_self), h⟩
  · obtain ⟨part, hpart, hmem⟩ := mem_accessorsAll.mp h
    exact ⟨part, hfilter part hpart, hmem⟩

theorem exists_of_mem_disjunction {parts : List Predicate} {accessor : Accessor}
    (h : accessor ∈ (disjunction parts).accessors) :
    ∃ part ∈ parts, accessor ∈ part.accessors := by
  unfold disjunction at h
  split at h
  · contradiction
  · exact ⟨_, List.mem_cons_self, h⟩
  · exact mem_accessorsAll.mp h

end Predicate

def Scope.Reaches (scope : Scope) (aliases : AliasMap) (target : Scope) : Prop :=
  target = scope ∨
    ∃ aliasName entity, aliases.entity aliasName = .ok entity ∧ target = .link entity aliasName

theorem Scope.reaches_of_aliased {scope target : Scope} {aliases : AliasMap}
    {alias? : Option String} (h : scope.aliased aliases alias? = .ok target) :
    scope.Reaches aliases target := by
  cases alias? with
  | none => exact Or.inl (Except.ok.inj h).symm
  | some aliasName =>
    obtain ⟨entity, hentity, rfl⟩ := map_eq_ok_iff.mp h
    exact Or.inr ⟨aliasName, entity, hentity, rfl⟩

def Accessor.In (accessor : Accessor) (catalog : Catalog) (aliases : AliasMap) (scope : Scope) :
    Prop :=
  ∃ target column, scope.Reaches aliases target ∧ target.accessor catalog column = .ok accessor

namespace Predicate

def ReadsAt (accessor : Accessor) (predicate : Predicate) : Prop :=
  ∀ read ∈ predicate.accessors, read = accessor

variable {accessor : Accessor}

theorem ReadsAt.constant (holds : Bool) : ReadsAt accessor (.constant holds) :=
  fun _ hread => nomatch hread

theorem ReadsAt.of_accessors {predicate : Predicate} (h : predicate.accessors = [accessor]) :
    ReadsAt accessor predicate := by
  intro read hread
  rw [h] at hread
  exact List.mem_singleton.mp hread

end Predicate

namespace Condition

open Predicate (ReadsAt)

variable {condition : Condition} {context : Context} {accessor : Accessor}
variable {values : List Value} {predicate : Predicate}

theorem compileOptions_readsAt (h : condition.compileOptions accessor = .ok predicate) :
    ReadsAt accessor predicate := by
  have hequal : ∀ negated : Bool, (do
      let codes ← Value.operandOptionSet condition.values
      if codes.isEmpty then return Predicate.constant false
      else return .value accessor (.setEquals codes) negated none) = .ok predicate →
      ReadsAt accessor predicate := by
    intro negated h
    obtain ⟨codes, -, h⟩ := bind_eq_ok_iff.mp h
    split at h
    · obtain rfl := Except.ok.inj h
      exact .constant false
    · obtain rfl := Except.ok.inj h
      exact .of_accessors rfl
  unfold compileOptions at h
  split at h
  · obtain rfl := Except.ok.inj h
    exact .of_accessors rfl
  · exact hequal false h
  · exact hequal true h
  · exact hequal _ h
  · obtain ⟨codes, -, h⟩ := bind_eq_ok_iff.mp h
    obtain rfl := Except.ok.inj h
    exact .of_accessors rfl
  · contradiction

theorem compileKinship_readsAt {entity : String} {kinship : Kinship}
    (h : condition.compileKinship context entity accessor kinship values = .ok predicate) :
    ReadsAt accessor predicate := by
  unfold compileKinship at h
  split at h
  · contradiction
  · split at h
    · contradiction
    · obtain rfl := Except.ok.inj h
      exact .of_accessors rfl

theorem compileAnyOf_readsAt (negated : Bool) :
    ReadsAt accessor (compileAnyOf accessor values negated) := by
  unfold compileAnyOf
  split
  · exact .constant false
  · exact .of_accessors rfl

theorem compileComparison_readsAt (comparison : Comparison) (operand : Value) :
    ReadsAt accessor (compileComparison accessor comparison operand) := by
  unfold compileComparison
  split
  · exact .of_accessors rfl
  · exact .constant false

theorem compileRange_readsAt {negated widened : Bool} {low high : Value}
    (h : compileRange accessor negated widened low high = .ok predicate) :
    ReadsAt accessor predicate := by
  rcases compileRange_cases accessor widened low high with hfault | hnothing | ⟨_, _, hrange⟩
  · rw [hfault] at h
    contradiction
  · rw [hnothing] at h
    obtain rfl := Except.ok.inj h
    exact .constant false
  · rw [hrange] at h
    obtain rfl := Except.ok.inj h
    exact .of_accessors rfl

theorem compileDay_readsAt {offset : UtcOffset} {test : DayTest} {negated : Bool} {operand : Value}
    (h : condition.compileDay offset accessor test negated operand = .ok predicate) :
    ReadsAt accessor predicate := by
  unfold compileDay at h
  split at h
  · obtain rfl := Except.ok.inj h
    exact .of_accessors rfl
  · contradiction

theorem compileOperator_readsAt {isWindow : Bool}
    (h : condition.compileOperator context accessor values isWindow = .ok predicate) :
    ReadsAt accessor predicate := by
  unfold compileOperator at h
  dsimp only at h
  split at h
  · exact Except.ok.inj h ▸ compileAnyOf_readsAt false
  · exact Except.ok.inj h ▸ compileAnyOf_readsAt true
  · exact Except.ok.inj h ▸ compileAnyOf_readsAt _
  · exact Except.ok.inj h ▸ compileComparison_readsAt _ _
  · exact Except.ok.inj h ▸ .of_accessors rfl
  · exact Except.ok.inj h ▸ .of_accessors rfl
  · exact compileRange_readsAt h
  · exact compileDay_readsAt h
  · exact compileDay_readsAt h
  · exact compileDay_readsAt h
  · exact Except.ok.inj h ▸ .of_accessors rfl
  · contradiction

theorem compileAttribute_readsAt {scope : Scope}
    (h : condition.compileAttribute context scope accessor values = .ok predicate) :
    ReadsAt accessor predicate := by
  unfold compileAttribute at h
  dsimp only at h
  split at h
  · contradiction
  · split at h
    · contradiction
    · split at h
      · exact compileKinship_readsAt h
      · obtain ⟨derived?, -, h⟩ := bind_eq_ok_iff.mp h
        split at h
        · exact compileOperator_readsAt h
        · exact compileOperator_readsAt h

theorem compileOperands_readsAt {scope : Scope}
    (h : condition.compileOperands context scope accessor = .ok predicate) :
    ReadsAt accessor predicate := by
  rw [compileOperands_eq] at h
  split at h
  · split at h
    · exact compileOptions_readsAt h
    · exact compileAttribute_readsAt h
  · contradiction

theorem compile_accessors {aliases : AliasMap} {scope : Scope}
    (h : condition.compile context aliases scope = .ok predicate) :
    ∀ read ∈ predicate.accessors, read.In context.catalog aliases scope := by
  intro read hread
  unfold compile at h
  split at h
  · obtain rfl := Except.ok.inj h
    contradiction
  · obtain ⟨target, htarget, h⟩ := bind_eq_ok_iff.mp h
    obtain ⟨accessor, haccessor, h⟩ := bind_eq_ok_iff.mp h
    have hown : accessor.In context.catalog aliases scope :=
      ⟨target, condition.column, Scope.reaches_of_aliased htarget, haccessor⟩
    cases hother : condition.other? with
    | some other =>
      simp only [hother, compileColumns] at h
      split at h
      · obtain ⟨found, hfound, h⟩ := bind_eq_ok_iff.mp h
        obtain ⟨right, hright, h⟩ := bind_eq_ok_iff.mp h
        obtain rfl := Except.ok.inj h
        simp only [Predicate.accessors, List.mem_cons, List.not_mem_nil, or_false] at hread
        rcases hread with rfl | rfl
        · exact hown
        · refine ⟨found.1, found.2, ?_, hright⟩
          rcases otherColumn_cases hfound with ⟨rfl, -⟩ | ⟨-, entity, hentity, hlink⟩
          · exact Scope.reaches_of_aliased htarget
          · exact Or.inr ⟨_, entity, hentity, hlink⟩
      · contradiction
    | none =>
      simp only [hother] at h
      exact compileOperands_readsAt h read hread ▸ hown

end Condition

namespace Filter

variable {context : Context} {aliases : AliasMap} {scope : Scope}

theorem combine_accessors {connective : Connective} {parts : List Predicate} {read : Accessor}
    (h : read ∈ (combine connective parts).accessors) : ∃ part ∈ parts, read ∈ part.accessors := by
  cases connective with
  | and => exact Predicate.exists_of_mem_conjunction h
  | or => exact Predicate.exists_of_mem_disjunction h

mutual

theorem compile_accessors : (filter : Filter) → {predicate : Predicate} →
    filter.compile context aliases scope = .ok predicate →
    ∀ read ∈ predicate.accessors, read.In context.catalog aliases scope
  | ⟨connective, conditions, filters⟩, predicate, h, read, hread => by
    unfold compile at h
    obtain ⟨own, hown, h⟩ := bind_eq_ok_iff.mp h
    obtain ⟨inner, hinner, h⟩ := bind_eq_ok_iff.mp h
    obtain rfl := Except.ok.inj h
    obtain ⟨part, hpart, hread⟩ := combine_accessors hread
    rcases List.mem_append.mp hpart with hpart | hpart
    · obtain ⟨condition, -, hcondition⟩ := exists_of_mem_mapM hown hpart
      exact Condition.compile_accessors hcondition read hread
    · exact compileAll_accessors filters hinner part hpart read hread

theorem compileAll_accessors : (filters : List Filter) → {parts : List Predicate} →
    compileAll context aliases scope filters = .ok parts →
    ∀ part ∈ parts, ∀ read ∈ part.accessors, read.In context.catalog aliases scope
  | [], parts, h, part, hpart, read, hread => by
    obtain rfl := Except.ok.inj h
    contradiction
  | filter :: rest, parts, h, part, hpart, read, hread => by
    unfold compileAll at h
    obtain ⟨first, hfirst, h⟩ := bind_eq_ok_iff.mp h
    obtain ⟨others, hothers, h⟩ := bind_eq_ok_iff.mp h
    obtain rfl := Except.ok.inj h
    rcases List.mem_cons.mp hpart with rfl | hpart
    · exact compile_accessors filter hfirst read hread
    · exact compileAll_accessors rest hothers part hpart read hread

end

end Filter

end RecordQuery
