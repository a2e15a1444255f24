import RecordQuery.Proofs.Predicate.Congruence
import RecordQuery.Proofs.Record.Merge

/-!
Contrary operators. The conditions of an operator and of its contrary are compiled alike, and divide
the rows in which the column has a value between them: each of those rows is accepted by one of the
two, except for one whose local day neither can tell.
-/

namespace RecordQuery

inductive Operator.Contrary : Operator → Operator → Prop
  | compare : Contrary (.compare .equal) (.compare .notEqual)
  | oneOf : Contrary (.oneOf false) (.oneOf true)
  | between : Contrary (.between false) (.between true)
  | on : Contrary (.on false) (.on true)
  | caller (id : CallerId) : Contrary (.caller id false) (.caller id true)
  | containValues : Contrary (.containValues false) (.containValues true)
  | kin : Contrary (.kin .under) (.kin .notUnder)
  | text (form : TextForm) : Contrary (.text form false) (.text form true)
  | null : Contrary (.null false) (.null true)

def Operator.judgesAll : Operator → Bool
  | .text _ _ | .null _ => true
  | _ => false

namespace Operator.Contrary

variable {operator contrary : Operator}

theorem arity_eq (h : operator.Contrary contrary) : contrary.arity = operator.arity := by
  cases h <;> rfl

end Operator.Contrary

def OperatorFault.naming (operator : Operator) : OperatorFault → OperatorFault
  | .unknown keyword => .unknown keyword
  | .optionsOnly _ column => .optionsOnly operator column
  | .datesOnly _ column type => .datesOnly operator column type
  | .notForAttribute _ column => .notForAttribute operator column
  | .notForColumns _ column => .notForColumns operator column
  | .notForOptions _ column => .notForOptions operator column

def OperandFault.naming (operator : Operator) : OperandFault → OperandFault
  | .countNeeded _ column least => .countNeeded operator column least
  | .fiscalNumberNeeded _ column unit => .fiscalNumberNeeded operator column unit
  | .beyondCalendar _ column => .beyondCalendar operator column
  | .dateNeeded _ column => .dateNeeded operator column
  | .idNeeded _ column => .idNeeded operator column
  | fault => fault

def Error.naming (operator : Operator) : Error → Error
  | .operator fault => .operator (fault.naming operator)
  | .operandCount _ count => .operandCount operator count
  | .operand fault => .operand (fault.naming operator)
  | fault => fault

namespace Value

def isItem : Value → Bool
  | .null | .list _ => false
  | _ => true

theorem unwrap_ne_aliased (aliasName column : String) (inner : Value) :
    (value : Value) → value.unwrap ≠ .aliased aliasName column inner
  | .aliased _ _ value => unwrap_ne_aliased aliasName column inner value
  | .null | .text _ | .int _ | .decimal _ | .bool _ | .dateTime _ | .uuid _ | .reference _
  | .money _ | .option _ | .options _ | .list _ => by simp [unwrap]

theorem isItem_iff_scalar? {value : Value} (h : value.unwrap = value) (type : AttributeType)
    (sample? : Option Value) :
    value.isItem = true ↔ ∃ scalar, value.scalar? type sample? = some scalar := by
  cases value with
  | aliased aliasName column inner => exact absurd h (unwrap_ne_aliased _ _ _ _)
  | decimal d => cases type <;> simp [isItem, scalar?, unwrap]
  | money amount => cases type <;> simp [isItem, scalar?, unwrap]
  | bool b => cases type <;> simp [isItem, scalar?, unwrap]
  | reference target =>
    simp only [isItem, scalar?, unwrap, true_iff]
    split <;> exact ⟨_, rfl⟩
  | _ => simp [isItem, scalar?, unwrap]

end Value

namespace Accessor

variable {accessor : Accessor} {row : Record} {value : Value}

def ReadsItem (accessor : Accessor) (row : Record) : Prop :=
  ∃ value, accessor.read? row = some value ∧ value.isItem = true

theorem unwrap_of_read? (h : accessor.read? row = some value) : value.unwrap = value := by
  unfold read? at h
  split at h
  · rename_i found hfound
    obtain rfl := Option.some.inj h
    obtain ⟨held, -, rfl⟩ := Option.map_eq_some_iff.mp hfound
    exact Value.unwrap_unwrap held
  · obtain ⟨key, -, h⟩ := Option.bind_eq_some_iff.mp h
    obtain ⟨held, -, h⟩ := Option.bind_eq_some_iff.mp h
    unfold referenceName? at h
    split at h
    · split at h <;>
      · obtain rfl := Option.some.inj h
        rfl
    · obtain rfl := Option.some.inj h
      rfl
    · contradiction

theorem readsItem_iff (sample? : Option Value) :
    accessor.ReadsItem row ↔ ∃ scalar, Predicate.scalarOf accessor sample? row = some scalar := by
  unfold ReadsItem Predicate.scalarOf readPresent?
  cases hread : accessor.read? row with
  | none => simp
  | some value =>
    have hiff := Value.isItem_iff_scalar? (unwrap_of_read? hread) accessor.type sample?
    cases value with
    | null => simp [Value.isItem, Value.isNull, Option.filter]
    | _ => simpa [Value.isNull, Option.filter] using hiff

end Accessor

namespace Predicate

def Accepts (predicate : Predicate) (row : Record) : Prop := predicate.eval row = .ok true

theorem accepts_iff {predicate : Predicate} {row : Record} :
    predicate.Accepts row ↔ predicate.faults row = false ∧ predicate.admits row = true := by
  unfold Accepts eval
  cases predicate.faults row <;> simp

/-- One of the predicates accepts a row in which the column reads an item, and neither of them
accepts another row. -/
def Divide (accessor : Accessor) (p q : Predicate) (row : Record) : Prop :=
  (accessor.ReadsItem row → (p.Accepts row ↔ ¬ q.Accepts row)) ∧
    (¬ accessor.ReadsItem row → ¬ p.Accepts row ∧ ¬ q.Accepts row)

/-- What is compiled of an operator and of its contrary: one test of one column, for it and against
it. A local day is tested for by none of the operators but the two of days. -/
inductive Opposed (offset : UtcOffset) (accessor : Accessor) :
    Operator → Predicate → Predicate → Prop
  | nothing {operator : Operator} (h : operator.judgesAll = false) :
    Opposed offset accessor operator (.constant false) (.constant false)
  | value {operator : Operator} (test : ValueTest) (sample? : Option Value)
    (h : operator.judgesAll = false) (hday : operator ≠ .on false)
    (htest : ∀ scalar, test.faults scalar = false) :
    Opposed offset accessor operator (.value accessor test false sample?)
      (.value accessor test true sample?)
  | day (date : Date) :
    Opposed offset accessor (.on false) (.value accessor (.day .on date offset) false none)
      (.value accessor (.day .on date offset) true none)
  | isNull : Opposed offset accessor (.null false) (.isNull accessor false) (.isNull accessor true)
  | like (form : TextForm) (pattern : Pattern) :
    Opposed offset accessor (.text form false) (.like accessor pattern false)
      (.like accessor pattern true)

def DayOutside (offset : UtcOffset) (accessor : Accessor) (row : Record) : Prop :=
  ∃ t : Instant, scalarOf accessor none row = some (.dateTime t) ∧ t.localDate? offset = none

section Semantics

variable {offset : UtcOffset} {accessor : Accessor} {operator : Operator} {p q : Predicate}
variable {row : Record}

theorem value_divide {test : ValueTest} {sample? : Option Value}
    (h : ∀ scalar, scalarOf accessor sample? row = some scalar → test.faults scalar = false) :
    Divide accessor (.value accessor test false sample?) (.value accessor test true sample?)
      row := by
  constructor
  · intro hitem
    obtain ⟨scalar, hscalar⟩ := (Accessor.readsItem_iff sample?).mp hitem
    simp [accepts_iff, faults, admits, hscalar, h scalar hscalar]
  · intro hitem
    have hscalar : scalarOf accessor sample? row = none := by
      rw [Option.eq_none_iff_forall_ne_some]
      intro scalar hscalar
      exact hitem ((Accessor.readsItem_iff sample?).mpr ⟨scalar, hscalar⟩)
    simp [accepts_iff, faults, admits, hscalar]

theorem eval_value_of_faults {test : ValueTest} {sample? : Option Value} {scalar : Scalar}
    {negated : Bool} (hscalar : scalarOf accessor sample? row = some scalar)
    (h : test.faults scalar = true) :
    (Predicate.value accessor test negated sample?).eval row = .error .overflow := by
  simp [eval, faults, hscalar, h]

theorem faults_day_eq_false {date : Date} (h : ¬ DayOutside offset accessor row) (scalar : Scalar)
    (hscalar : scalarOf accessor none row = some scalar) :
    (ValueTest.day .on date offset).faults scalar = false := by
  cases scalar with
  | dateTime t =>
    cases hdate : t.localDate? offset with
    | none => exact absurd ⟨t, hscalar, hdate⟩ h
    | some day => simp [ValueTest.faults, hdate]
  | _ => rfl

namespace Opposed

theorem accepts_iff_not (h : Opposed offset accessor operator p q)
    (hall : operator.judgesAll = true) (row : Record) : p.Accepts row ↔ ¬ q.Accepts row := by
  cases h with
  | nothing hnot => rw [hall] at hnot; contradiction
  | value _ _ hnot => rw [hall] at hnot; contradiction
  | day => contradiction
  | isNull => simp [accepts_iff, faults, admits]
  | like form pattern => simp [accepts_iff, faults, admits]

theorem divide_iff (h : Opposed offset accessor operator p q)
    (hall : operator.judgesAll = false) :
    (p = .constant false ∧ q = .constant false) ∨
      ∀ row, (Divide accessor p q row ↔
        ¬ (operator = .on false ∧ DayOutside offset accessor row)) ∧
      (operator = .on false → DayOutside offset accessor row →
        p.eval row = .error .overflow ∧ q.eval row = .error .overflow) := by
  cases h with
  | nothing => exact Or.inl ⟨rfl, rfl⟩
  | isNull => contradiction
  | like => contradiction
  | value test sample? _ hday htest =>
    refine Or.inr fun row => ⟨?_, fun hon => absurd hon hday⟩
    exact iff_of_true (value_divide fun scalar _ => htest scalar) fun hon => hday hon.1
  | day date =>
    refine Or.inr fun row => ?_
    have hfault : DayOutside offset accessor row → ∀ negated,
        (Predicate.value accessor (.day .on date offset) negated none).eval row =
          .error .overflow := by
      rintro ⟨t, hscalar, hdate⟩ negated
      exact eval_value_of_faults hscalar (by simp [ValueTest.faults, hdate])
    refine ⟨⟨?_, ?_⟩, fun _ hout => ⟨hfault hout false, hfault hout true⟩⟩
    · rintro hdivide ⟨-, hout⟩
      obtain ⟨t, hscalar, -⟩ := id hout
      have hone := hdivide.1 ((Accessor.readsItem_iff none).mpr ⟨_, hscalar⟩)
      simp [Accepts, hfault hout] at hone
    · intro hin
      exact value_divide (faults_day_eq_false fun hout => hin ⟨rfl, hout⟩)

end Opposed

end Semantics

end Predicate

namespace Value

variable {fault : Error}

theorem naming_of_optionCode {value : Value} (h : optionCode value = .error fault)
    (operator : Operator) : fault.naming operator = fault := by
  unfold optionCode at h
  split at h
  · contradiction
  · obtain rfl := Except.error.inj h
    rfl

theorem naming_of_listedCodes (items : List Value) (h : listedCodes items = .error fault)
    (operator : Operator) : fault.naming operator = fault := by
  fun_induction listedCodes items with
  | case1 inner ih => exact ih h
  | case2 items hitems =>
    obtain ⟨item, -, hitem⟩ := exists_of_mapM_eq_error (map_eq_error_iff.mp h)
    exact naming_of_optionCode hitem operator

theorem naming_of_operandOptionSet {values : List Value}
    (h : operandOptionSet values = .error fault) (operator : Operator) :
    fault.naming operator = fault := by
  unfold operandOptionSet at h
  split at h
  · unfold optionSet at h
    split at h
    · exact naming_of_listedCodes _ h operator
    · contradiction
    · exact naming_of_optionCode (map_eq_error_iff.mp h) operator
  · exact naming_of_listedCodes _ h operator

end Value

inductive Condition.Contrarily (contrary : Operator) (R : Predicate → Predicate → Prop) :
    Except Error Predicate → Except Error Predicate → Prop
  | ok {p q : Predicate} (h : R p q) : Contrarily contrary R (.ok p) (.ok q)
  | error (fault : Error) : Contrarily contrary R (.error fault) (.error (fault.naming contrary))

namespace Condition

def saying (condition : Condition) (operator : Operator) : Condition :=
  { condition with operator }

namespace Contrarily

variable {contrary : Operator} {R : Predicate → Predicate → Prop}

theorem bind {α : Type} {answer : Except Error α} {next after : α → Except Error Predicate}
    (herror : ∀ fault, answer = .error fault → fault.naming contrary = fault)
    (hok : ∀ a, answer = .ok a → Contrarily contrary R (next a) (after a)) :
    Contrarily contrary R (answer >>= next) (answer >>= after) := by
  cases h : answer with
  | ok a => exact hok a h
  | error fault =>
    have hfault : Contrarily contrary R (.error fault) (.error (fault.naming contrary)) :=
      .error fault
    rw [herror fault h] at hfault
    exact hfault

end Contrarily

section Parts

variable {contrary : Operator} (offset : UtcOffset) (accessor : Accessor)

theorem compileAnyOf_opposed {operator : Operator} (hall : operator.judgesAll = false)
    (hday : operator ≠ .on false) (values : List Value) :
    Predicate.Opposed offset accessor operator (compileAnyOf accessor values false)
      (compileAnyOf accessor values true) := by
  unfold compileAnyOf
  split
  · exact .nothing hall
  · exact .value _ _ hall hday fun _ => rfl

theorem compileRange_contrarily (low high : Value) (widened : Bool) :
    Contrarily contrary (Predicate.Opposed offset accessor (.between false))
      (compileRange accessor false widened low high)
      (compileRange accessor true widened low high) := by
  rcases compileRange_cases accessor widened low high with hfault | hnothing | ⟨_, _, hrange⟩
  · rw [hfault, hfault]
    exact .error .overflow
  · rw [hnothing, hnothing]
    exact .ok (.nothing rfl)
  · rw [hrange, hrange]
    exact .ok (.value _ _ rfl (by simp) fun _ => rfl)

end Parts

section Compile

variable {condition : Condition} {contrary : Operator} (h : condition.operator.Contrary contrary)
variable (context : Context) (accessor : Accessor) (values : List Value)

include h

theorem window?_of_contrary (present : Present) :
    condition.window? values present = present.today.map (fun _ => none) ∧
      (condition.saying contrary).window? values present = present.today.map fun _ => none := by
  obtain ⟨column, alias?, operator, operands, other?, outer⟩ := condition
  have hnames : operator.namesWindow = false ∧ contrary.namesWindow = false := by
    cases h <;> exact ⟨rfl, rfl⟩
  exact ⟨window?_of_not_namesWindow hnames.1 _ _, window?_of_not_namesWindow hnames.2 _ _⟩

theorem compileOptions_contrary :
    Contrarily contrary (Predicate.Opposed context.catalog.offset accessor condition.operator)
      (condition.compileOptions accessor) ((condition.saying contrary).compileOptions accessor) := by
  obtain ⟨column, alias?, operator, operands, other?, outer⟩ := condition
  have hsets (operator contrary : Operator) (hall : operator.judgesAll = false)
      (hday : operator ≠ .on false) : Contrarily contrary
        (Predicate.Opposed context.catalog.offset accessor operator)
        (do
          let codes ← Value.operandOptionSet operands
          if codes.isEmpty then return .constant false
          else return .value accessor (.setEquals codes) false none)
        (do
          let codes ← Value.operandOptionSet operands
          if codes.isEmpty then return .constant false
          else return .value accessor (.setEquals codes) true none) := by
    apply Contrarily.bind
    · intro fault hfault
      exact Value.naming_of_operandOptionSet hfault contrary
    · intro codes _
      split
      · exact .ok (.nothing hall)
      · exact .ok (.value _ none hall hday fun _ => rfl)
  cases h with
  | compare => exact hsets _ _ rfl (by simp)
  | oneOf => exact hsets _ _ rfl (by simp)
  | containValues =>
    apply Contrarily.bind
    · intro fault hfault
      exact Value.naming_of_operandOptionSet hfault _
    · intro codes _
      exact .ok (.value _ none rfl (by simp) fun _ => rfl)
  | null => exact .ok .isNull
  | between => exact .error _
  | on => exact .error _
  | caller id => exact .error _
  | kin => exact .error _
  | text form => exact .error _

theorem compileOperator_contrary (hkin : condition.operator.isHierarchy = false)
    (hoptions : ∀ negated, condition.operator ≠ .containValues negated) :
    Contrarily contrary (Predicate.Opposed context.catalog.offset accessor condition.operator)
      (condition.compileOperator context accessor values false)
      ((condition.saying contrary).compileOperator context accessor values false) := by
  obtain ⟨column, alias?, operator, operands, other?, outer⟩ := condition
  cases h with
  | compare => exact .ok (compileAnyOf_opposed _ accessor rfl (by simp) values)
  | oneOf => exact .ok (compileAnyOf_opposed _ accessor rfl (by simp) values)
  | between => exact compileRange_contrarily _ accessor _ _ _
  | on =>
    simp only [compileOperator, compileDay, saying]
    split
    · exact .ok (.day _)
    · exact .error _
  | caller id => exact .ok (.value _ none rfl (by simp) fun _ => rfl)
  | containValues => exact absurd rfl (hoptions false)
  | kin => contradiction
  | text form => exact .ok (.like form _)
  | null => exact .ok .isNull

theorem compileKinship_contrary (entity : String) (hkin : condition.operator = .kin .under) :
    Contrarily contrary (Predicate.Opposed context.catalog.offset accessor condition.operator)
      (condition.compileKinship context entity accessor .under values)
      ((condition.saying contrary).compileKinship context entity accessor .notUnder values) := by
  rw [hkin] at h ⊢
  cases h
  unfold compileKinship
  split
  · exact .error _
  · split
    · exact .error _
    · exact .ok (.value _ none rfl (by simp) fun _ => rfl)

theorem compileWindow_contrary (hkin : condition.operator.isHierarchy = false)
    (hoptions : ∀ negated, condition.operator ≠ .containValues negated) (present : Present) :
    Contrarily contrary (Predicate.Opposed context.catalog.offset accessor condition.operator)
      (do
        match ← condition.window? values present with
        | some derived =>
          derived.compileOperator context accessor (Value.flattenAll derived.values) true
        | none => condition.compileOperator context accessor values false)
      (do
        match ← (condition.saying contrary).window? values present with
        | some derived =>
          derived.compileOperator context accessor (Value.flattenAll derived.values) true
        | none => (condition.saying contrary).compileOperator context accessor values false) := by
  obtain ⟨hwindow, hother⟩ := window?_of_contrary h values present
  rw [hwindow, hother]
  unfold Present.today
  split
  · exact compileOperator_contrary h context accessor values hkin hoptions
  · exact .error .overflow

theorem compileAttribute_contrary (scope : Scope) :
    Contrarily contrary (Predicate.Opposed context.catalog.offset accessor condition.operator)
      (condition.compileAttribute context scope accessor values)
      ((condition.saying contrary).compileAttribute context scope accessor values) := by
  have hwindow := compileWindow_contrary h context accessor values
  have hkinship := compileKinship_contrary h context accessor values scope.entity
  obtain ⟨column, alias?, operator, operands, other?, outer⟩ := condition
  cases h with
  | containValues => exact .error _
  | kin => exact hkinship rfl
  | on =>
    simp only [compileAttribute, saying, Operator.isDate, Bool.true_and]
    cases accessor.type.isTemporal with
    | false => exact .error _
    | true => exact hwindow rfl (by simp) context.present
  | _ => exact hwindow rfl (by simp) context.present

theorem compileOperands_contrary (scope : Scope) :
    Contrarily contrary (Predicate.Opposed context.catalog.offset accessor condition.operator)
      (condition.compileOperands context scope accessor)
      ((condition.saying contrary).compileOperands context scope accessor) := by
  have hoperator : (condition.saying contrary).operator = contrary := rfl
  have hvalues : (condition.saying contrary).values = condition.values := rfl
  rw [compileOperands_eq, compileOperands_eq, hoperator, hvalues, h.arity_eq]
  split
  · split
    · exact compileOptions_contrary h context accessor
    · exact compileAttribute_contrary h context accessor _ scope
  · exact .error _

end Compile

section Naming

variable {fault : Error} {scope : Scope}

theorem naming_of_aliased {aliases : AliasMap} {alias? : Option String}
    (h : scope.aliased aliases alias? = .error fault) (operator : Operator) :
    fault.naming operator = fault := by
  unfold Scope.aliased at h
  split at h
  · have hentity := map_eq_error_iff.mp h
    unfold AliasMap.entity at hentity
    split at hentity
    · contradiction
    · obtain rfl := Except.error.inj hentity
      rfl
  · contradiction

theorem naming_of_attributeType? {catalog : Catalog} {entity name : String}
    (h : catalog.attributeType? entity name = some (.error fault)) (operator : Operator) :
    fault.naming operator = fault := by
  unfold Catalog.attributeType? at h
  split at h
  · obtain ⟨declared, -, h⟩ := Option.map_eq_some_iff.mp h
    contradiction
  · obtain ⟨recorded, -, h⟩ := Option.map_eq_some_iff.mp h
    split at h
    · contradiction
    · obtain rfl := Except.error.inj h
      rfl
  · contradiction

theorem naming_of_accessor {catalog : Catalog} {column : String}
    (h : scope.accessor catalog column = .error fault) (operator : Operator) :
    fault.naming operator = fault := by
  have hresolve := map_eq_error_iff.mp h
  unfold Catalog.resolve at hresolve
  split at hresolve
  · obtain rfl := Except.error.inj hresolve
    rfl
  · split at hresolve
    · contradiction
    · rename_i hfault
      obtain rfl := Except.error.inj hresolve
      exact naming_of_attributeType? hfault operator
    · split at hresolve
      · contradiction
      · obtain rfl := Except.error.inj hresolve
        rfl

end Naming

/-- An operator and its contrary are compiled alike, and fail alike. Of texts and of null they
divide all rows; of other tests they say nothing at all, or divide the rows in which the column has
a value. A row whose local day is outside of the calendar is left out: neither can evaluate it. -/
theorem compile_contrary {condition : Condition} {contrary : Operator}
    (h : condition.operator.Contrary contrary) (houter : condition.outer = false)
    (hother : condition.other? = none) (context : Context) (aliases : AliasMap) (scope : Scope) :
    (∀ fault, condition.compile context aliases scope = .error fault →
      (condition.saying contrary).compile context aliases scope =
        .error (fault.naming contrary)) ∧
    ∀ p, condition.compile context aliases scope = .ok p → ∃ q target accessor,
      (condition.saying contrary).compile context aliases scope = .ok q ∧
      scope.aliased aliases condition.alias? = .ok target ∧
      target.accessor context.catalog condition.column = .ok accessor ∧
      (condition.operator.judgesAll = true → ∀ row, p.Accepts row ↔ ¬ q.Accepts row) ∧
      (condition.operator.judgesAll = false → (p = .constant false ∧ q = .constant false) ∨
        ∀ row, (Predicate.Divide accessor p q row ↔ ¬ (condition.operator = .on false ∧
          Predicate.DayOutside context.catalog.offset accessor row)) ∧
        (condition.operator = .on false →
          Predicate.DayOutside context.catalog.offset accessor row →
          p.eval row = .error .overflow ∧ q.eval row = .error .overflow)) := by
  have hparts := compileOperands_contrary h context
  have hcompile (c : Condition) (houter : c.outer = false) (hother : c.other? = none) :
      c.compile context aliases scope = (do
        let target ← scope.aliased aliases c.alias?
        let accessor ← target.accessor context.catalog c.column
        c.compileOperands context target accessor) := by
    unfold compile
    rw [houter, hother]
    rfl
  rw [hcompile condition houter hother, hcompile (condition.saying contrary) houter hother]
  have halias : (condition.saying contrary).alias? = condition.alias? := rfl
  have hcolumn : (condition.saying contrary).column = condition.column := rfl
  rw [halias, hcolumn]
  cases htarget : scope.aliased aliases condition.alias? with
  | error fault =>
    refine ⟨?_, fun p hp => by contradiction⟩
    rintro _ ⟨⟩
    rw [naming_of_aliased htarget, error_bind]
  | ok target =>
    rw [ok_bind, ok_bind]
    cases haccessor : target.accessor context.catalog condition.column with
    | error fault =>
      refine ⟨?_, fun p hp => by contradiction⟩
      rintro _ ⟨⟩
      rw [naming_of_accessor haccessor, error_bind]
    | ok accessor =>
      rw [ok_bind, ok_bind]
      have hboth := hparts accessor target
      generalize condition.compileOperands context target accessor = first at hboth
      generalize (condition.saying contrary).compileOperands context target accessor = second
        at hboth
      cases hboth with
      | error fault =>
        refine ⟨?_, fun p hp => by contradiction⟩
        rintro _ ⟨⟩
        rfl
      | @ok p q hopposed =>
        refine ⟨fun fault hfault => by contradiction, ?_⟩
        rintro _ ⟨⟩
        exact ⟨q, target, accessor, rfl, rfl, haccessor, hopposed.accepts_iff_not,
          hopposed.divide_iff⟩

def westward : Context where
  store := .empty
  catalog := { Catalog.empty with
    entities := [(EntityMetadata.ofName "account").withCode "since" .dateTime]
    offset := ⟨-3600, by decide⟩ }
  caller := default
  now := .greatest
  pageSize := 0

def sinceGreatestDay : Condition := ⟨"since", none, .on false, [.dateTime .greatest], none, false⟩

def sinceAccessor : Accessor := ⟨"since", .dateTime, none⟩

def isGreatestDay (negated : Bool) : Predicate :=
  .value sinceAccessor (.day .on Instant.greatest.date westward.catalog.offset) negated none

def accountSince (t : Instant) : Record := ⟨"account", .ofNat 1, .ofList [("since", .dateTime t)]⟩

theorem compile_contrary_on :
    ∃ p q, sinceGreatestDay.compile westward [] (.root "account") = .ok p ∧
      (sinceGreatestDay.saying (.on true)).compile westward [] (.root "account") = .ok q ∧
      Predicate.Divide sinceAccessor p q (accountSince .greatest) := by
  have hp : sinceGreatestDay.compile westward [] (.root "account") = .ok (isGreatestDay false) :=
    rfl
  obtain ⟨q, target, accessor, hq, htarget, haccessor, -, hdivide⟩ :=
    (compile_contrary .on rfl rfl westward [] (.root "account")).2 _ hp
  obtain rfl := Except.ok.inj htarget
  obtain rfl := Except.ok.inj (haccessor.symm.trans
    (show (Scope.root "account").accessor westward.catalog "since" = .ok sinceAccessor from rfl))
  refine ⟨_, q, hp, hq, ?_⟩
  rcases hdivide rfl with ⟨hnone, -⟩ | hrows
  · contradiction
  · refine (hrows (accountSince .greatest)).1.mpr ?_
    rintro ⟨-, t, hscalar, hdate⟩
    obtain rfl : Instant.greatest = t := Scalar.dateTime.inj (Option.some.inj hscalar)
    exact absurd hdate (by decide)

theorem exists_not_divide : ¬ ∀ (condition : Condition) (contrary : Operator) (context : Context)
    (aliases : AliasMap) (scope target : Scope) (accessor : Accessor) (p q : Predicate),
    condition.operator.Contrary contrary → condition.outer = false → condition.other? = none →
    condition.compile context aliases scope = .ok p →
    (condition.saying contrary).compile context aliases scope = .ok q →
    scope.aliased aliases condition.alias? = .ok target →
    target.accessor context.catalog condition.column = .ok accessor →
    condition.operator.judgesAll = false →
    (p = .constant false ∧ q = .constant false) ∨ ∀ row, Predicate.Divide accessor p q row := by
  intro h
  have hclaim := h sinceGreatestDay (.on true) westward [] (.root "account") (.root "account")
    sinceAccessor (isGreatestDay false) (isGreatestDay true) .on rfl rfl rfl rfl rfl rfl rfl
  have hfault (negated : Bool) : ¬ (isGreatestDay negated).Accepts (accountSince .least) := by
    have heval : (isGreatestDay negated).eval (accountSince .least) = .error .overflow := rfl
    simp [Predicate.Accepts, heval]
  rcases hclaim with ⟨hnone, -⟩ | hrows
  · contradiction
  · have hone := (hrows (accountSince .least)).1 ⟨_, rfl, rfl⟩
    exact hfault false (hone.mpr (hfault true))

end Condition

end RecordQuery
