import RecordQuery.Proofs.Predicate.Alike
import RecordQuery.Proofs.Predicate.Congruence
import RecordQuery.Proofs.Query.Transcript
import RecordQuery.Proofs.Value.OptionTexts

namespace RecordQuery

namespace Value

theorem scalar?_congr {sample other : Option Value}
    (h : namesReference other = namesReference sample) (value : Value) (type : AttributeType) :
    value.scalar? type other = value.scalar? type sample := by
  unfold scalar?
  rw [h]

theorem exists_isName_of_reference {value : Value} {target : Reference}
    (h : value.unwrap = .reference target) (type : AttributeType) (sample : Option Value) :
    ∃ scalar, value.scalar? type sample = some scalar ∧ scalar.isName = true := by
  simp only [scalar?, h]
  split
  · exact ⟨_, rfl, rfl⟩
  · exact ⟨_, rfl, rfl⟩

theorem scalar?_samples (value : Value) (type : AttributeType) (sample other : Option Value) :
    value.scalar? type other = value.scalar? type sample ∨
      ∃ x y, value.scalar? type sample = some x ∧ value.scalar? type other = some y ∧
        x.isName = true ∧ y.isName = true := by
  cases hvalue : value.unwrap with
  | reference target =>
    obtain ⟨x, hx, hname⟩ := exists_isName_of_reference hvalue type sample
    obtain ⟨y, hy, hname'⟩ := exists_isName_of_reference hvalue type other
    exact Or.inr ⟨x, y, hx, hy, hname, hname'⟩
  | _ =>
    refine Or.inl ?_
    simp only [scalar?, hvalue]

end Value

namespace ValueTest

structure Agrees (test other : ValueTest) : Prop where
  holds : ∀ x, other.holds x = test.holds x
  faults : ∀ x, other.faults x = test.faults x

def PassesOver (test : ValueTest) : Prop :=
  ∀ x : Scalar, x.isName = true → test.holds x = false ∧ test.faults x = false

variable {a b c d : Scalar}

theorem Agrees.anyOf {operands others : List Scalar}
    (h : List.Forall₂ Scalar.Agrees operands others) : (anyOf operands).Agrees (anyOf others) := by
  refine ⟨fun x => ?_, fun _ => rfl⟩
  rw [ValueTest.holds, ValueTest.holds]
  induction h with
  | nil => rfl
  | cons hab _ ih => rw [List.any_cons, List.any_cons, ih, hab.equals]

theorem Agrees.compare (h : a.Agrees b) (comparison : Comparison) :
    (compare comparison a).Agrees (compare comparison b) := by
  refine ⟨fun x => ?_, fun _ => rfl⟩
  rw [ValueTest.holds, ValueTest.holds, h.order?]

theorem Agrees.range (hlow : a.Agrees b) (hhigh : c.Agrees d) :
    (range a c).Agrees (range b d) := by
  refine ⟨fun x => ?_, fun _ => rfl⟩
  rw [ValueTest.holds, ValueTest.holds, hlow.order?, hhigh.order?]

theorem passesOver_anyOf {operands : List Scalar}
    (h : ∀ operand ∈ operands, operand.isName = false) : (anyOf operands).PassesOver := by
  intro x hx
  refine ⟨?_, rfl⟩
  rw [holds, List.any_eq_false]
  intro operand hoperand
  rw [Scalar.equals, Scalar.order?_eq_none (h operand hoperand) hx]
  decide

theorem passesOver_compare (h : a.isName = false) (comparison : Comparison) :
    (compare comparison a).PassesOver := by
  intro x hx
  refine ⟨?_, rfl⟩
  rw [holds, Scalar.order?_eq_none h hx]
  rfl

theorem passesOver_range (h : a.isName = false) : (range a c).PassesOver := by
  intro x hx
  refine ⟨?_, rfl⟩
  rw [holds, Scalar.order?_eq_none h hx]
  rfl

end ValueTest

namespace Predicate

theorem Alike.value {accessor : Accessor} {test other : ValueTest} {sample sample' : Option Value}
    (h : test.Agrees other)
    (hsample : Value.namesReference sample' = Value.namesReference sample ∨ test.PassesOver)
    (negated : Bool) :
    Alike Eq (.value accessor test negated sample) (.value accessor other negated sample') := by
  rintro row _ rfl
  simp only [admits, faults, scalarOf]
  cases accessor.readPresent? row with
  | none => exact ⟨rfl, rfl⟩
  | some value =>
    simp only [Option.bind_some]
    have hsame : value.scalar? accessor.type sample' = value.scalar? accessor.type sample ∨
        test.PassesOver ∧ ∃ x y, value.scalar? accessor.type sample = some x ∧
          value.scalar? accessor.type sample' = some y ∧ x.isName = true ∧ y.isName = true := by
      rcases hsample with hnames | hpasses
      · exact Or.inl (Value.scalar?_congr hnames value accessor.type)
      · exact (Value.scalar?_samples value accessor.type sample sample').imp id
          fun hnames => ⟨hpasses, hnames⟩
    rcases hsame with hequal | ⟨hpasses, x, y, hx, hy, hname, hname'⟩
    · rw [hequal]
      cases value.scalar? accessor.type sample with
      | none => exact ⟨rfl, rfl⟩
      | some scalar => simp [h.holds, h.faults]
    · -- A reference is a name under one sample and an identifier under the other: neither is found.
      obtain ⟨hholds, hfaults⟩ := hpasses x hname
      obtain ⟨hholds', hfaults'⟩ := hpasses y hname'
      simp [hx, hy, h.holds, h.faults, hholds, hholds', hfaults, hfaults']

end Predicate

namespace Condition

open Value (operandTexts)

variable {accessor : Accessor} {values : List Value}

theorem compileAnyOf_texts (h : ∀ value ∈ values, value.isOperand accessor.type = true)
    (hnames : Value.namesReference (((values.flatMap operandTexts).map Value.text).head?) =
        Value.namesReference values.head? ∨
      ∀ value ∈ values, ∀ scalar ∈ value.scalar? accessor.type (some value),
        scalar.isName = false) (negated : Bool) :
    Predicate.Alike Eq (compileAnyOf accessor values negated)
      (compileAnyOf accessor ((values.flatMap operandTexts).map .text) negated) := by
  have hscalars := Value.scalars_texts h
  have hpasses : (∀ value ∈ values, ∀ scalar ∈ value.scalar? accessor.type (some value),
      scalar.isName = false) → ∀ operand ∈ values.filterMap fun value =>
        value.scalar? accessor.type (some value), operand.isName = false := by
    intro hnames operand hoperand
    obtain ⟨value, hvalue, hscalar⟩ := List.mem_filterMap.mp hoperand
    exact hnames value hvalue operand hscalar
  unfold compileAnyOf
  generalize (values.filterMap fun value => value.scalar? accessor.type (some value)) = operands
    at hscalars hpasses
  generalize (((values.flatMap operandTexts).map Value.text).filterMap fun value =>
    value.scalar? accessor.type (some value)) = others at hscalars
  cases hscalars with
  | nil => exact Predicate.Alike.refl _
  | cons hfirst hrest =>
    exact Predicate.Alike.value (.anyOf (.cons hfirst hrest))
      (hnames.imp id fun hnames => ValueTest.passesOver_anyOf (hpasses hnames)) negated

theorem compileComparison_text {value : Value} {text : String}
    (h : value.WrittenAs accessor.type text) (comparison : Comparison) :
    Predicate.Alike Eq (compileComparison accessor comparison value)
      (compileComparison accessor comparison (.text text)) := by
  obtain ⟨scalar, hscalar, hagrees, hnames⟩ := h.scalar
  unfold compileComparison
  rw [hscalar, Value.scalar?_text]
  exact Predicate.Alike.value (.compare hagrees comparison)
    (hnames.imp id fun hname => ValueTest.passesOver_compare hname comparison) false

theorem wholeDay_agrees {a b : Scalar} (h : a.Agrees b) :
    Carries False Scalar.Agrees (wholeDay a) (wholeDay b) := by
  rcases h with rfl | ⟨d, e, rfl, rfl, hsame⟩
  · exact (Carries.of_eq rfl).imp fun a b hab => Or.inl hab.symm
  · exact Carries.of_ok (Or.inr ⟨d, e, rfl, rfl, hsame⟩)

theorem compileRange_texts {low high : Value} {lowText highText : String}
    (hlow : low.WrittenAs accessor.type lowText) (hhigh : high.WrittenAs accessor.type highText)
    (negated widened : Bool) :
    Carries False (Predicate.Alike Eq) (compileRange accessor negated widened low high)
      (compileRange accessor negated widened (.text lowText) (.text highText)) := by
  obtain ⟨lower, hlower, hlowers, hnames⟩ := hlow.scalar
  obtain ⟨upper, hupper, huppers, -⟩ := hhigh.scalar
  unfold compileRange
  simp only [hlower, hupper, Value.scalar?_text]
  have hrange : ∀ a b : Scalar, a.Agrees b →
      Predicate.Alike Eq (.value accessor (.range lower a) negated (some low))
        (.value accessor (.range (Value.scalarOfText lowText accessor.type) b) negated
          (some (.text lowText))) :=
    fun a b hab => Predicate.Alike.value (.range hlowers hab)
      (hnames.imp id fun hname => ValueTest.passesOver_range hname) negated
  cases widened with
  | true =>
    have hends : Carries False
        (fun a b => ∃ c d : Scalar, a = some c ∧ b = some d ∧ c.Agrees d)
        (some <$> wholeDay upper) (some <$> wholeDay (Value.scalarOfText highText accessor.type)) :=
      (wholeDay_agrees huppers).map fun a b hab => ⟨a, b, rfl, rfl, hab⟩
    apply hends.bind
    rintro _ _ ⟨a, b, rfl, rfl, hab⟩
    exact Carries.of_ok (hrange a b hab)
  | false => exact Carries.of_ok (hrange upper _ huppers)

theorem compileDay_text {condition : Condition} {value : Value} {text : String}
    (h : value.WrittenAs .dateTime text) (offset : UtcOffset) (test : DayTest) (negated : Bool) :
    Carries False (Predicate.Alike Eq)
      (condition.compileDay offset accessor test negated value)
      (condition.compileDay offset accessor test negated (.text text)) := by
  obtain ⟨scalar, hscalar, hagrees, -⟩ := h.scalar
  unfold compileDay
  rw [Value.scalar?_text]
  cases hday : value.scalar? .dateTime none with
  | none => exact Carries.of_fault _ _
  | some day =>
    cases day with
    | dateTime t =>
      have hsame : scalar = .dateTime t := by
        rcases value.scalar?_samples .dateTime none (some value) with heq | ⟨x, y, hx, -, hname, -⟩
        · exact Option.some.inj ((hscalar.symm.trans heq).trans hday)
        · obtain rfl := Option.some.inj (hx.symm.trans hday)
          contradiction
      have hread : Value.scalarOfText text .dateTime = .dateTime t := by
        rcases hagrees with hread | ⟨d, e, habsurd, -⟩
        · rw [hread, hsame]
        · rw [hsame] at habsurd
          contradiction
      rw [hread]
      exact Carries.of_ok (Predicate.Alike.refl _)
    | _ => exact Carries.of_fault _ _

theorem exists_written_of_single {type : AttributeType} (hlength : values.length = 1)
    (hsuits : ∀ value ∈ values, value.suits type = true) :
    ∃ value text, values = [value] ∧ value.WrittenAs type text ∧
      (values.flatMap operandTexts).map Value.text = [.text text] := by
  obtain ⟨value, rfl⟩ := List.length_eq_one_iff.mp hlength
  obtain ⟨text, hwritten⟩ := Value.exists_writtenAs (hsuits value List.mem_cons_self)
  refine ⟨value, text, rfl, hwritten, ?_⟩
  rw [List.flatMap_singleton, hwritten.texts]
  rfl

theorem compileDay_texts {condition : Condition} (offset : UtcOffset) (test : DayTest)
    (negated : Bool) (hlength : values.length = 1)
    (hsuits : ∀ value ∈ values, value.suits accessor.type = true)
    (htype : accessor.type = .dateTime) :
    Carries False (Predicate.Alike Eq)
      (condition.compileDay offset accessor test negated (values.headD .null))
      (condition.compileDay offset accessor test negated
        (((values.flatMap operandTexts).map Value.text).headD .null)) := by
  rw [htype] at hsuits
  obtain ⟨value, text, rfl, hwritten, htexts⟩ := exists_written_of_single hlength hsuits
  rw [htexts]
  exact compileDay_text hwritten _ _ _

theorem compileOperator_texts {condition : Condition} (context : Context)
    (harity : condition.operator.arity.accepts values.length = true)
    (hkeeps : ∀ value ∈ values, condition.operator.keeps accessor.type value)
    (hnames : condition.operator.comparesAny = true →
      Value.namesReference (((values.flatMap operandTexts).map Value.text).head?) =
        Value.namesReference values.head? ∨
      ∀ value ∈ values, ∀ scalar ∈ value.scalar? accessor.type (some value),
        scalar.isName = false)
    (hdate : condition.operator.isDate = true → accessor.type = .dateTime) :
    Carries False (Predicate.Alike Eq)
      (condition.compileOperator context accessor values false)
      (condition.compileOperator context accessor ((values.flatMap operandTexts).map .text)
        false) := by
  unfold compileOperator
  dsimp only
  cases hoperator : condition.operator with
  | compare comparison =>
    rw [hoperator] at harity hkeeps hnames
    cases comparison with
    | equal => exact Carries.of_ok (compileAnyOf_texts hkeeps (hnames rfl) false)
    | notEqual => exact Carries.of_ok (compileAnyOf_texts hkeeps (hnames rfl) true)
    | _ =>
      obtain ⟨value, text, rfl, hwritten, htexts⟩ :=
        exists_written_of_single (beq_iff_eq.mp harity) hkeeps
      rw [htexts]
      exact Carries.of_ok (compileComparison_text hwritten _)
  | oneOf negated =>
    rw [hoperator] at hkeeps hnames
    exact Carries.of_ok (compileAnyOf_texts hkeeps (hnames rfl) negated)
  | text form negated =>
    rw [hoperator] at harity hkeeps
    obtain ⟨value, rfl⟩ := List.length_eq_one_iff.mp (beq_iff_eq.mp harity)
    have hvalue : value.operandTexts = [value.display] := hkeeps value List.mem_cons_self
    rw [List.flatMap_singleton, hvalue]
    exact Carries.of_ok (Predicate.Alike.refl _)
  | between negated =>
    rw [hoperator] at harity hkeeps
    obtain ⟨low, high, rfl⟩ := List.length_eq_two.mp (beq_iff_eq.mp harity)
    obtain ⟨lowText, hlow⟩ := Value.exists_writtenAs (hkeeps low (by simp))
    obtain ⟨highText, hhigh⟩ := Value.exists_writtenAs (hkeeps high (by simp))
    rw [List.flatMap_cons, List.flatMap_singleton, hlow.texts, hhigh.texts]
    exact compileRange_texts hlow hhigh negated true
  | on negated =>
    rw [hoperator] at harity hkeeps hdate
    exact compileDay_texts _ .on negated (beq_iff_eq.mp harity) hkeeps (hdate rfl)
  | onOrAfter =>
    rw [hoperator] at harity hkeeps hdate
    exact compileDay_texts _ .onOrAfter false (beq_iff_eq.mp harity) hkeeps (hdate rfl)
  | onOrBefore =>
    rw [hoperator] at harity hkeeps hdate
    exact compileDay_texts _ .onOrBefore false (beq_iff_eq.mp harity) hkeeps (hdate rfl)
  | null _ | caller _ _ => exact Carries.of_ok (Predicate.Alike.refl _)
  | _ => exact Carries.of_fault _ _

theorem exists_text_of_operandId? {value : Value} {id : Uuid} (h : operandId? value = some id) :
    ∃ text, value.operandTexts = [text] ∧ operandId? (.text text) = some id := by
  have htexts := value.operandTexts_unwrap
  unfold operandId? at h
  cases hvalue : value.unwrap with
  | text content =>
    rw [hvalue] at h htexts
    exact ⟨content, htexts.symm, h⟩
  | uuid found =>
    rw [hvalue] at h htexts
    obtain rfl := Option.some.inj h
    exact ⟨found.text, htexts.symm, found.read?_text⟩
  | reference target =>
    rw [hvalue] at h htexts
    obtain rfl := Option.some.inj h
    exact ⟨target.id.text, htexts.symm, target.id.read?_text⟩
  | _ =>
    rw [hvalue] at h
    contradiction

theorem compileKinship_texts {condition : Condition} (context : Context) (entity : String)
    (kinship : Kinship) :
    Carries False (Predicate.Alike Eq)
      (condition.compileKinship context entity accessor kinship values)
      (condition.compileKinship context entity accessor kinship
        ((values.flatMap operandTexts).map .text)) := by
  unfold compileKinship
  cases context.catalog.parentColumn? entity with
  | none => exact Carries.of_fault _ _
  | some parentColumn =>
    cases hid : values.head?.bind operandId? with
    | none => exact Carries.of_fault _ _
    | some id =>
      obtain ⟨value, hhead, hvalue⟩ := Option.bind_eq_some_iff.mp hid
      obtain ⟨rest, rfl⟩ := List.head?_eq_some_iff.mp hhead
      obtain ⟨text, htexts, htext⟩ := exists_text_of_operandId? hvalue
      rw [List.flatMap_cons, htexts, List.singleton_append, List.map_cons, List.head?_cons,
        Option.bind_some, htext]
      exact Carries.of_ok (Predicate.Alike.refl _)

theorem window?_numbers {condition : Condition} {others : List Value} (present : Present)
    (h : condition.operator.counts = true →
      List.Forall₂ (fun value other : Value => other.wholeNumber = value.wholeNumber) values
        others) :
    condition.window? others present = condition.window? values present := by
  have hnumber : ∀ (least : Int) (i : Nat), condition.operator.counts = true →
      numberAtLeast? least others[i]? = numberAtLeast? least values[i]? := by
    intro least i hcounts
    have hrel := h hcounts
    clear h
    induction hrel generalizing i with
    | nil => rfl
    | cons hsame _ ih =>
      cases i with
      | zero => simp only [numberAtLeast?, List.getElem?_cons_zero, Option.bind_some, hsame]
      | succ i => exact ih i
  have hhead : ∀ least : Int, condition.operator.counts = true →
      numberAtLeast? least others.head? = numberAtLeast? least values.head? := by
    intro least hcounts
    rw [List.head?_eq_getElem?, List.head?_eq_getElem?, hnumber least 0 hcounts]
  unfold window?
  cases hoperator : condition.operator with
  | sevenDays direction => cases direction <;> rfl
  | span direction unit =>
    rw [hoperator] at hhead
    simp only [countOperand, hhead _ rfl]
  | olderThan unit =>
    rw [hoperator] at hhead
    simp only [countOperand, hhead _ rfl]
  | fiscalSpan direction unit =>
    rw [hoperator] at hhead
    simp only [countOperand, hhead _ rfl]
  | inFiscalYear =>
    rw [hoperator] at hhead
    simp only [fiscalYearOperand, fiscalOperand, hhead _ rfl]
  | inFiscalPeriod =>
    rw [hoperator] at hhead
    simp only [fiscalPeriodOperand, fiscalOperand, hhead _ rfl]
  | fiscalPeriodAndYear reach =>
    rw [hoperator] at hhead hnumber
    simp only [fiscalPeriodOperand, fiscalYearOperand, fiscalOperand, hhead _ rfl, hnumber _ _ rfl]
  | _ => rfl

theorem compileOptions_withTexts {condition : Condition} {accessor : Accessor} {p : Predicate}
    (h : condition.compileOptions accessor = .ok p) :
    condition.withTexts.compileOptions accessor = .ok p := by
  unfold compileOptions at h ⊢
  have hoperator : condition.withTexts.operator = condition.operator := rfl
  rw [hoperator]
  cases hset : Value.operandOptionSet condition.values with
  | ok set =>
    have htexts : Value.operandOptionSet condition.withTexts.values = .ok set :=
      Value.operandOptionSet_operandTexts hset
    simp only [hset] at h
    simp only [htexts]
    exact h
  | error fault =>
    simp only [hset, error_bind] at h
    cases hop : condition.operator with
    | null negated =>
      rw [hop] at h
      exact h
    | compare comparison =>
      rw [hop] at h
      cases comparison <;> contradiction
    | _ =>
      rw [hop] at h
      contradiction

theorem forall₂_wholeNumber {values : List Value}
    (h : ∀ value ∈ values, value.suits .int = true) :
    List.Forall₂ (fun value other : Value => other.wholeNumber = value.wholeNumber) values
      ((values.flatMap operandTexts).map .text) := by
  rw [List.forall₂_map_right_iff]
  apply Value.forall₂_operandTexts
  intro value hvalue
  obtain ⟨text, hwritten⟩ := Value.exists_writtenAs (h value hvalue)
  exact ⟨text, hwritten.texts, hwritten.wholeNumber (h value hvalue)⟩

theorem suits_of_counts {operator : Operator} {type : AttributeType} {value : Value}
    (h : operator.keeps type value) (hcounts : operator.counts = true) :
    value.suits .int = true := by
  cases operator with
  | span _ _ | olderThan _ | fiscalSpan _ _ | inFiscalYear | inFiscalPeriod
  | fiscalPeriodAndYear _ => exact h hcounts
  | _ => contradiction

theorem compileAttribute_texts {condition : Condition} {context : Context} {scope : Scope}
    {accessor : Accessor} {values : List Value}
    (harity : condition.operator.arity.accepts values.length = true)
    (hkeeps : ∀ value ∈ values, condition.operator.keeps accessor.type value)
    (hnames : condition.operator.comparesAny = true →
      Value.namesReference (((values.flatMap operandTexts).map Value.text).head?) =
        Value.namesReference values.head? ∨
      ∀ value ∈ values, ∀ scalar ∈ value.scalar? accessor.type (some value),
        scalar.isName = false) :
    Carries False (Predicate.Alike Eq)
      (condition.compileAttribute context scope accessor values)
      (condition.compileAttribute context scope accessor
        ((values.flatMap operandTexts).map .text)) := by
  have hwindow : condition.window? ((values.flatMap operandTexts).map .text) context.present =
      condition.window? values context.present :=
    window?_numbers context.present fun hcounts =>
      forall₂_wholeNumber fun value hvalue => suits_of_counts (hkeeps value hvalue) hcounts
  unfold compileAttribute
  dsimp only
  split
  · exact Carries.of_fault _ _
  · split
    · exact Carries.of_fault _ _
    · rename_i hdate
      have hdate' : condition.operator.isDate = true → accessor.type = .dateTime := by
        intro hisDate
        rw [hisDate, Bool.true_and, Bool.not_eq_true', Bool.not_eq_false] at hdate
        cases htype : accessor.type with
        | dateTime => rfl
        | _ =>
          rw [htype] at hdate
          contradiction
      split
      · exact compileKinship_texts context scope.entity _
      · rw [hwindow]
        apply (Carries.of_eq rfl).bind
        rintro derived? _ rfl
        cases derived? with
        | some derived =>
          exact (Carries.of_eq rfl).imp fun p q hpq => hpq ▸ Predicate.Alike.refl p
        | none => exact compileOperator_texts context harity hkeeps hnames hdate'

theorem compileOperands_withTexts {condition : Condition} {context : Context} {scope : Scope}
    {accessor : Accessor} (h : condition.Survives accessor.type) :
    Carries False (Predicate.Alike Eq) (condition.compileOperands context scope accessor)
      (condition.withTexts.compileOperands context scope accessor) := by
  have htexts : Value.flattenAll condition.withTexts.values =
      ((Value.flattenAll condition.values).flatMap operandTexts).map .text := by
    rw [Value.operandTexts_flattenAll]
    exact Value.flattenAll_map_text _
  have hcount : condition.withTexts.operator.arity.accepts
      (Value.flattenAll condition.withTexts.values).length = true := by
    rw [htexts, List.length_map, Value.operandTexts_flattenAll]
    exact h.count
  rw [compileOperands_eq, compileOperands_eq, if_pos hcount]
  split
  · rename_i harity
    split
    · exact ⟨fun p hp => ⟨p, compileOptions_withTexts hp, Predicate.Alike.refl p⟩, False.elim⟩
    · rename_i htype
      have hcongr : condition.withTexts.compileAttribute context scope accessor
          (Value.flattenAll condition.withTexts.values) =
          condition.compileAttribute context scope accessor
            (((Value.flattenAll condition.values).flatMap operandTexts).map .text) := by
        rw [htexts]
        exact compileAttribute_congr rfl rfl _ _ _ _
      rw [hcongr]
      apply compileAttribute_texts harity (h.kept htype)
      rw [Value.operandTexts_flattenAll, List.head?_map]
      exact h.names htype
  · exact Carries.of_fault _ _

end Condition

end RecordQuery
