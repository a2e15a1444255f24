import Mathlib.Data.List.Forall2
import RecordQuery.Document.Writer
import RecordQuery.Proofs.Calendar.InstantTexts
import RecordQuery.Proofs.Text.Decimals
import RecordQuery.Proofs.Text.Identifiers
import RecordQuery.Value.Scalar

namespace RecordQuery

open Text

namespace Scalar

def isName : Scalar → Bool
  | .text _ | .uuid _ => true
  | _ => false

def Agrees (a b : Scalar) : Prop :=
  b = a ∨ ∃ d e : Decimal, a = .decimal d ∧ b = .decimal e ∧ e.mantissa = d.mantissa ∧
    e.scale = d.scale

namespace Agrees

variable {a b : Scalar}

theorem order? (h : a.Agrees b) (x : Scalar) : x.order? b = x.order? a := by
  rcases h with rfl | ⟨d, e, rfl, rfl, hmantissa, hscale⟩
  · rfl
  · have hcompare : ∀ left : Decimal, compare left e = compare left d := by
      intro left
      change left.compareValue e = left.compareValue d
      rw [Decimal.compareValue, Decimal.compareValue, hmantissa, hscale]
    cases x <;> simp only [Scalar.order?, hcompare]

theorem equals (h : a.Agrees b) (x : Scalar) : x.equals b = x.equals a := by
  rw [Scalar.equals, Scalar.equals, h.order?]

end Agrees

theorem order?_eq_none {a x : Scalar} (h : a.isName = false) (hx : x.isName = true) :
    x.order? a = none := by
  cases x with
  | text content => cases a <;> first | rfl | contradiction
  | uuid id => cases a <;> first | rfl | contradiction
  | _ => contradiction

end Scalar

namespace Value

/-- What is compared under the type as the text of the value is. Whole numbers can be written with
a point, but are not read with one. -/
def suits (type : AttributeType) (value : Value) : Bool :=
  match value.unwrap with
  | .text _ => true
  | .int _ | .option _ => type.isNumeric
  | .decimal d | .money d =>
    match type with
    | .decimal | .money => true
    | .int | .option => d.scale == 0 && d.toInt64?.isSome
    | _ => false
  | .bool _ => type == .bool
  | .dateTime t => type == .dateTime && t.isExpressible
  | .uuid _ | .reference _ => type == .uuid || type == .reference
  | _ => false

theorem operandTexts_unwrap : (value : Value) → value.unwrap.operandTexts = value.operandTexts
  | .aliased _ _ value => by
    rw [unwrap, operandTexts, operandTexts_unwrap value]
  | .null | .text _ | .int _ | .decimal _ | .bool _ | .dateTime _ | .uuid _ | .reference _
  | .money _ | .option _ | .options _ | .list _ => rfl

/-- The value has one text, which is compared under the type as the value is. It also decides as the
value does whether references are compared by name, where that makes a difference. -/
structure WrittenAs (type : AttributeType) (value : Value) (text : String) : Prop where
  texts : value.operandTexts = [text]
  scalar : ∃ scalar, value.scalar? type (some value) = some scalar ∧
    scalar.Agrees (scalarOfText text type) ∧
    (namesReference (some (.text text)) = namesReference (some value) ∨ scalar.isName = false)

theorem readInt64?_toChars {d : Decimal} (h : d.scale = 0) :
    readInt64? d.toChars = d.toInt64? := by
  have hpower : powerOfTen d.scale = 1 := by rw [h]; rfl
  have hquotient : d.mantissa / (1 : Nat) = d.mantissa := Int.ediv_one _
  have hintegral : d.isIntegral = true := by
    rw [Decimal.isIntegral, hpower]
    simp
  rw [readInt64?, Decimal.readInt?_toChars h, Option.bind_some, Decimal.toInt64?]
  simp only [hpower, hquotient, hintegral, Bool.true_and, decide_eq_true_eq]

section Texts

variable {type : AttributeType}

theorem agrees_of_int (h : type.isNumeric = true) (n : Int64) :
    (scalarOfInt n type).Agrees (scalarOfText (intText n.toInt) type) := by
  have hdecimal : ∃ found, Decimal.read? (intChars n.toInt) = some found ∧
      found.mantissa = (Decimal.ofInt64 n).mantissa ∧ found.scale = (Decimal.ofInt64 n).scale := by
    rw [← Decimal.toChars_ofInt64]
    exact Decimal.read?_toChars _
  obtain ⟨found, hfound, hsame⟩ := hdecimal
  unfold scalarOfText scalarOfInt
  simp only [trimChars_intText, readInt64?_intChars, hfound]
  cases type with
  | int | option => exact Or.inl rfl
  | decimal | money => exact Or.inr ⟨_, found, rfl, rfl, hsame⟩
  | _ => contradiction

theorem agrees_of_decimal (h : type = .decimal ∨ type = .money) (d : Decimal) :
    (Scalar.decimal d).Agrees (scalarOfText d.text type) := by
  obtain ⟨found, hfound, hsame⟩ := Decimal.read?_toChars d
  unfold scalarOfText
  simp only [Decimal.trimChars_text, hfound]
  rcases h with rfl | rfl
  · exact Or.inr ⟨d, found, rfl, rfl, hsame⟩
  · exact Or.inr ⟨d, found, rfl, rfl, hsame⟩

theorem agrees_of_whole (h : type = .int ∨ type = .option) {d : Decimal} (hscale : d.scale = 0)
    (hfits : d.toInt64?.isSome = true) :
    (Scalar.int (d.toInt64?.getD noNumber)).Agrees (scalarOfText d.text type) := by
  obtain ⟨n, hn⟩ := Option.isSome_iff_exists.mp hfits
  unfold scalarOfText
  simp only [Decimal.trimChars_text, readInt64?_toChars hscale, hn]
  rcases h with rfl | rfl
  · exact Or.inl rfl
  · exact Or.inl rfl

theorem agrees_of_uuid (h : type = .uuid ∨ type = .reference) (id : Uuid) :
    (Scalar.uuid id).Agrees (scalarOfText id.text type) := by
  unfold scalarOfText
  simp only [Uuid.read?_text]
  rcases h with rfl | rfl
  · exact Or.inl rfl
  · exact Or.inl rfl

theorem namesReference_text_uuid (id : Uuid) : namesReference (some (.text id.text)) = false := by
  simp [namesReference, unwrap, Uuid.read?_text]

end Texts

theorem exists_writtenAs_of_decimal {type : AttributeType} {value : Value} {d : Decimal}
    (hvalue : value.unwrap = .decimal d ∨ value.unwrap = .money d) (h : value.suits type = true) :
    ∃ text, value.WrittenAs type text := by
  have htexts : value.operandTexts = [d.text] := by
    rw [← operandTexts_unwrap]
    rcases hvalue with hvalue | hvalue <;> rw [hvalue] <;> rfl
  have hwhole : value.wholeNumber = d.toInt64?.getD noNumber := by
    rcases hvalue with hvalue | hvalue <;> rw [wholeNumber, hvalue]
  cases type with
  | decimal | money =>
    refine ⟨d.text, htexts, .decimal d, ?_, agrees_of_decimal (by simp) d, Or.inr rfl⟩
    rcases hvalue with hvalue | hvalue <;> rw [scalar?, hvalue]
  | int | option =>
    have hwritten : d.scale = 0 ∧ d.toInt64?.isSome = true := by
      rcases hvalue with hvalue | hvalue <;> simpa [suits, hvalue] using h
    refine ⟨d.text, htexts, .int value.wholeNumber, ?_, ?_, Or.inr rfl⟩
    · rcases hvalue with hvalue | hvalue <;> rw [scalar?, hvalue]
    · rw [hwhole]
      exact agrees_of_whole (by simp) hwritten.1 hwritten.2
  | _ => rcases hvalue with hvalue | hvalue <;> simp [suits, hvalue] at h

theorem exists_writtenAs {type : AttributeType} {value : Value} (h : value.suits type = true) :
    ∃ text, value.WrittenAs type text := by
  have htexts := operandTexts_unwrap value
  have hsuits := h
  unfold suits at h
  cases hvalue : value.unwrap with
  | text content =>
    rw [hvalue] at htexts
    refine ⟨content, htexts.symm, scalarOfText content type, ?_, Or.inl rfl, Or.inl ?_⟩
    · rw [scalar?, hvalue]
    · simp [namesReference, hvalue, unwrap]
  | int n =>
    rw [hvalue] at h htexts
    refine ⟨_, htexts.symm, scalarOfInt n type, ?_, agrees_of_int h n, Or.inr ?_⟩
    · rw [scalar?, hvalue]
    · cases type <;> rfl
  | option code =>
    rw [hvalue] at h htexts
    have hcode : intText code.toInt64.toInt = intText code.toInt := by rw [Int32.toInt_toInt64]
    refine ⟨intText code.toInt, htexts.symm, scalarOfInt code.toInt64 type, ?_, ?_, Or.inr ?_⟩
    · rw [scalar?, hvalue]
    · rw [← hcode]
      exact agrees_of_int h _
    · cases type <;> rfl
  | decimal d => exact exists_writtenAs_of_decimal (Or.inl hvalue) hsuits
  | money amount => exact exists_writtenAs_of_decimal (Or.inr hvalue) hsuits
  | bool b =>
    rw [hvalue] at h htexts
    obtain rfl := beq_iff_eq.mp h
    refine ⟨_, htexts.symm, .bool b, ?_, Or.inl ?_, Or.inr rfl⟩
    · rw [scalar?, hvalue]
    · cases b <;> rfl
  | dateTime t =>
    rw [hvalue] at h htexts
    simp only [Bool.and_eq_true, beq_iff_eq] at h
    obtain ⟨rfl, hexpressible⟩ := h
    refine ⟨t.text, htexts.symm, .dateTime t, ?_, Or.inl ?_, Or.inr rfl⟩
    · rw [scalar?, hvalue]
    · simp only [scalarOfText, Calendar.readChars?_text hexpressible, Option.map_some,
        Option.getD_some]
  | uuid id =>
    rw [hvalue] at h htexts
    simp only [Bool.or_eq_true, beq_iff_eq] at h
    refine ⟨id.text, htexts.symm, .uuid id, ?_, agrees_of_uuid h id, Or.inl ?_⟩
    · rw [scalar?, hvalue]
    · rw [namesReference_text_uuid]
      simp [namesReference, hvalue]
  | reference target =>
    rw [hvalue] at h htexts
    simp only [Bool.or_eq_true, beq_iff_eq] at h
    have hsample : namesReference (some value) = false := by simp [namesReference, hvalue]
    refine ⟨target.id.text, htexts.symm, .uuid target.id, ?_, agrees_of_uuid h target.id,
      Or.inl ?_⟩
    · simp only [scalar?, hvalue, hsample, Bool.false_eq_true, if_false]
    · rw [namesReference_text_uuid, hsample]
  | _ =>
    rw [hvalue] at h
    contradiction

theorem WrittenAs.wholeNumber {value : Value} {text : String} (h : value.WrittenAs .int text)
    (hsuits : value.suits .int = true) : (Value.text text).wholeNumber = value.wholeNumber := by
  have hnumber : value.scalar? .int (some value) = some (.int value.wholeNumber) →
      (Value.text text).wholeNumber = value.wholeNumber := by
    intro hscalar
    obtain ⟨scalar, hsome, hagrees, -⟩ := h.scalar
    obtain rfl := Option.some.inj (hscalar.symm.trans hsome)
    rcases hagrees with hread | ⟨d, e, habsurd, -⟩
    · unfold scalarOfText at hread
      cases hn : readInt64? (trimChars text.toList) with
      | none => simp [hn] at hread
      | some n =>
        simp only [hn, Option.map_some, Option.getD_some, Scalar.int.injEq] at hread
        simp [Value.wholeNumber, unwrap, hn, hread]
    · contradiction
  have htexts := operandTexts_unwrap value
  rw [h.texts] at htexts
  unfold suits at hsuits
  cases hvalue : value.unwrap with
  | text content =>
    rw [hvalue] at htexts
    have hcontent : content = text := List.singleton_inj.mp htexts
    simp [Value.wholeNumber, unwrap, hvalue, hcontent]
  | int n =>
    apply hnumber
    simp [scalar?, hvalue, Value.wholeNumber, scalarOfInt]
  | option code =>
    apply hnumber
    simp [scalar?, hvalue, Value.wholeNumber, scalarOfInt]
  | decimal d =>
    apply hnumber
    simp only [scalar?, hvalue]
  | money amount =>
    apply hnumber
    simp only [scalar?, hvalue]
  | _ => simp [hvalue] at hsuits

mutual

theorem operandTexts_flatten : (value : Value) →
    value.flatten.flatMap operandTexts = value.operandTexts
  | .list items => by
    rw [flatten, operandTexts, operandTexts_flattenAll items]
  | .aliased _ _ _ | .null | .text _ | .int _ | .decimal _ | .bool _ | .dateTime _ | .uuid _
  | .reference _ | .money _ | .option _ | .options _ => by
    simp [flatten]

theorem operandTexts_flattenAll : (values : List Value) →
    (flattenAll values).flatMap operandTexts = operandTextsAll values
  | [] => rfl
  | value :: rest => by
    rw [flattenAll, List.flatMap_append, operandTexts_flatten value, operandTexts_flattenAll rest,
      operandTextsAll]

end

theorem flattenAll_map_text (texts : List String) :
    flattenAll (texts.map .text) = texts.map .text := by
  induction texts with
  | nil => rfl
  | cons text rest ih =>
    rw [List.map_cons, flattenAll, ih]
    rfl

theorem forall₂_operandTexts {R : Value → String → Prop} {values : List Value}
    (h : ∀ value ∈ values, ∃ text, value.operandTexts = [text] ∧ R value text) :
    List.Forall₂ R values (values.flatMap operandTexts) := by
  induction values with
  | nil => exact .nil
  | cons value rest ih =>
    obtain ⟨text, htext, hR⟩ := h value List.mem_cons_self
    rw [List.flatMap_cons, htext]
    exact .cons hR (ih fun other hother => h other (List.mem_cons_of_mem _ hother))

def isOperand (type : AttributeType) (value : Value) : Bool :=
  value.unwrap.isNull || value.suits type

theorem operandTexts_of_null {value : Value} (h : value.unwrap.isNull = true) :
    value.operandTexts = [] := by
  rw [← operandTexts_unwrap]
  cases hvalue : value.unwrap with
  | null => rfl
  | _ =>
    rw [hvalue] at h
    contradiction

theorem scalar?_of_null {value : Value} (h : value.unwrap.isNull = true) (type : AttributeType)
    (sample : Option Value) : value.scalar? type sample = none := by
  cases hvalue : value.unwrap with
  | null => rw [scalar?, hvalue]
  | _ =>
    rw [hvalue] at h
    contradiction

theorem scalar?_text (text : String) (type : AttributeType) (sample : Option Value) :
    (Value.text text).scalar? type sample = some (scalarOfText text type) := rfl

theorem scalars_texts {type : AttributeType} {values : List Value}
    (h : ∀ value ∈ values, value.isOperand type = true) :
    List.Forall₂ Scalar.Agrees
      (values.filterMap fun value => value.scalar? type (some value))
      (((values.flatMap operandTexts).map Value.text).filterMap fun value =>
        value.scalar? type (some value)) := by
  induction values with
  | nil => exact .nil
  | cons value rest ih =>
    have hrest := ih fun other hother => h other (List.mem_cons_of_mem _ hother)
    have hvalue := h value List.mem_cons_self
    rw [isOperand, Bool.or_eq_true] at hvalue
    rcases hvalue with hnull | hsuits
    · simp only [List.filterMap_cons, scalar?_of_null hnull, List.flatMap_cons,
        operandTexts_of_null hnull, List.nil_append]
      exact hrest
    · obtain ⟨text, hwritten⟩ := exists_writtenAs hsuits
      obtain ⟨scalar, hscalar, hagrees, -⟩ := hwritten.scalar
      simp only [List.filterMap_cons, hscalar, List.flatMap_cons, hwritten.texts,
        List.singleton_append, List.map_cons, scalar?_text]
      exact .cons hagrees hrest

end Value

end RecordQuery
