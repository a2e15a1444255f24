import RecordQuery.Proofs.Predicate.TextOperands

namespace RecordQuery

namespace Condition

theorem transcript_eq_withTexts {condition : Condition} (hother : condition.other? = none)
    (hoperator : ∀ negated, condition.operator ≠ .text .contains negated) :
    condition.transcript = condition.withTexts := by
  have hword : condition.operator.transcript = condition.operator ∧
      condition.operator.written.2 = id := by
    cases hcase : condition.operator with
    | text form negated =>
      cases form with
      | contains => exact absurd hcase (hoperator negated)
      | _ => exact ⟨rfl, rfl⟩
    | _ => exact ⟨rfl, rfl⟩
  simp only [transcript, withTexts, hword, hother, Option.isSome_none, Bool.false_eq_true, if_false,
    id_eq]

theorem compileAttribute_like {condition : Condition} {form : TextForm} {negated : Bool}
    (h : condition.operator = .text form negated) (context : Context) (scope : Scope)
    (accessor : Accessor) (values : List Value) :
    condition.compileAttribute context scope accessor values = (do
      let _ ← context.present.today
      return .like accessor (textPattern form (values.headD .null).display) negated) := by
  have hnames : condition.operator.namesWindow = false := by rw [h]; rfl
  have hdate : condition.operator.isDate = false := by rw [h]; rfl
  unfold compileAttribute
  dsimp only
  rw [window?_of_not_namesWindow hnames, hdate, h]
  cases context.present.today with
  | error fault => rfl
  | ok today =>
    simp only [Bool.false_and, Bool.false_eq_true, if_false, Except.map, ok_bind, pure_eq_ok,
      compileOperator, h]

theorem compileOperands_transcript_contains {condition : Condition} {negated : Bool}
    {context : Context} {scope : Scope} {accessor : Accessor} (hother : condition.other? = none)
    (hoperator : condition.operator = .text .contains negated)
    (h : condition.Survives accessor.type) :
    Carries False (Predicate.Alike Eq) (condition.compileOperands context scope accessor)
      (condition.transcript.compileOperands context scope accessor) := by
  rw [compileOperands_eq]
  split
  · rename_i harity
    split
    · -- Sets of options contain no texts, whatever the operand is.
      have hrefused : condition.compileOptions accessor =
          .error (.operator (.notForOptions condition.operator condition.column)) := by
        unfold compileOptions
        rw [hoperator]
        rfl
      rw [hrefused]
      exact Carries.of_fault _ _
    · rename_i htype
      rw [hoperator] at harity
      obtain ⟨value, hvalue⟩ := List.length_eq_one_iff.mp (beq_iff_eq.mp harity)
      have hkept : value.operandTexts = [value.display] := by
        have hkeeps := h.kept htype value (by simp [hvalue])
        rwa [hoperator] at hkeeps
      have htexts : Value.operandTextsAll condition.values = [value.display] := by
        rw [← Value.operandTexts_flattenAll, hvalue, List.flatMap_singleton, hkept]
      have hpattern : condition.transcript.values = [.text ("%" ++ value.display ++ "%")] := by
        simp only [transcript, hother, htexts, hoperator]
        cases negated <;> rfl
      have hlike : condition.transcript.operator = .text .like negated := by
        simp only [transcript, hoperator, Operator.transcript]
      rw [compileOperands_eq, hpattern, hlike, if_neg htype, compileAttribute_like hoperator,
        compileAttribute_like hlike, hvalue]
      exact (Carries.of_eq rfl).imp fun p q hpq => hpq ▸ Predicate.Alike.refl p
  · exact Carries.of_fault _ _

theorem compileOperands_transcript {condition : Condition} {context : Context} {scope : Scope}
    {accessor : Accessor} (hother : condition.other? = none)
    (h : condition.Survives accessor.type) :
    Carries False (Predicate.Alike Eq) (condition.compileOperands context scope accessor)
      (condition.transcript.compileOperands context scope accessor) := by
  by_cases hcontains : ∃ negated, condition.operator = .text .contains negated
  · obtain ⟨negated, hoperator⟩ := hcontains
    exact compileOperands_transcript_contains hother hoperator h
  · rw [not_exists] at hcontains
    rw [transcript_eq_withTexts hother hcontains]
    exact compileOperands_withTexts h

theorem compileColumns_transcript (condition : Condition) (catalog : Catalog) (aliases : AliasMap)
    (scope : Scope) (left : Accessor) (other : String) :
    Carries False Eq (condition.compileColumns catalog aliases scope left other)
      (condition.transcript.compileColumns catalog aliases scope left other) := by
  cases hoperator : condition.operator with
  | compare comparison =>
    have hsame : condition.transcript.operator = condition.operator := by
      simp only [transcript, hoperator, Operator.transcript]
    apply Carries.of_eq
    apply compileColumns_congr
    · rfl
    · exact hsame
  | _ =>
    have hrefused : condition.compileColumns catalog aliases scope left other =
        .error (.operator (.notForColumns condition.operator condition.column)) := by
      unfold compileColumns
      rw [hoperator]
      rfl
    rw [hrefused]
    exact Carries.of_fault _ _

end Condition

theorem Condition.compile_transcript {context : Context} {aliases : AliasMap} {query : Query}
    {scope : Scope} {condition : Condition} (hinner : condition.outer = false)
    (haliases : ∀ aliasName entity, aliases.entity aliasName = .ok entity →
      ∃ link ∈ Link.withinAll query.links, link.alias? = some aliasName ∧ entity = link.entity)
    (h : query.SurvivesAt context.catalog scope.entity condition) :
    Carries False (Predicate.Alike Eq) (condition.compile context aliases scope)
      (condition.transcript.compile context aliases scope) := by
  have hinner' : condition.transcript.outer = false := hinner
  have hother : condition.transcript.other? = condition.other? := rfl
  unfold compile
  rw [hinner, hinner', if_neg Bool.false_ne_true, if_neg Bool.false_ne_true, hother]
  apply (Carries.of_eq rfl).with_ok.bind
  rintro target _ ⟨htarget, -, rfl⟩
  apply (Carries.of_eq rfl).with_ok.bind
  rintro accessor _ ⟨haccessor, -, rfl⟩
  cases hcolumns : condition.other? with
  | some other =>
    exact (condition.compileColumns_transcript context.catalog aliases target accessor other).imp
      fun p q hpq => hpq ▸ Predicate.Alike.refl p
  | none =>
    obtain ⟨column, hcolumn, rfl⟩ := map_eq_ok_iff.mp haccessor
    rcases h with hsome | hsurvives
    · rw [hcolumns] at hsome
      contradiction
    · apply Condition.compileOperands_transcript hcolumns
      refine hsurvives target.entity column ?_ hcolumn
      unfold Scope.aliased at htarget
      cases halias : condition.alias? with
      | none =>
        rw [halias] at htarget
        rw [Except.ok.inj htarget]
      | some aliasName =>
        rw [halias] at htarget
        obtain ⟨entity, hentity, rfl⟩ := map_eq_ok_iff.mp htarget
        exact haliases aliasName entity hentity

namespace Filter

section Compile

variable {context : Context} {aliases : AliasMap} {scope : Scope}

mutual

theorem compile_transcript : (filter : Filter) →
    (∀ condition ∈ filter.conditionsWithin, Carries False (Predicate.Alike Eq)
      (condition.compile context aliases scope)
      (condition.transcript.compile context aliases scope)) →
    Carries False (Predicate.Alike Eq) (filter.compile context aliases scope)
      (filter.transcript.compile context aliases scope)
  | ⟨connective, conditions, filters⟩, h => by
    simp only [conditionsWithin, List.mem_append] at h
    rw [transcript, compile, compile]
    have hconditions : Carries False (List.Forall₂ (Predicate.Alike Eq))
        (conditions.mapM fun condition => condition.compile context aliases scope)
        ((conditions.map Condition.transcript).mapM fun condition =>
          condition.compile context aliases scope) := by
      apply Carries.mapM
      rw [List.forall₂_map_right_iff, List.forall₂_same]
      exact fun condition hcondition => h condition (Or.inl hcondition)
    apply hconditions.bind
    intro own own' hown
    apply (compileAll_transcript filters fun c hc => h c (Or.inr hc)).bind
    intro inner inner' hinner
    exact Carries.of_ok (combine_alike connective (List.rel_append hown hinner))

theorem compileAll_transcript : (filters : List Filter) →
    (∀ condition ∈ conditionsWithinAll filters, Carries False (Predicate.Alike Eq)
      (condition.compile context aliases scope)
      (condition.transcript.compile context aliases scope)) →
    Carries False (List.Forall₂ (Predicate.Alike Eq)) (compileAll context aliases scope filters)
      (compileAll context aliases scope (transcriptAll filters))
  | [], _ => Carries.of_ok .nil
  | filter :: rest, h => by
    simp only [conditionsWithinAll, List.mem_append] at h
    rw [transcriptAll, compileAll, compileAll]
    apply (compile_transcript filter fun c hc => h c (Or.inl hc)).bind
    intro first first' hfirst
    apply (compileAll_transcript rest fun c hc => h c (Or.inr hc)).bind
    intro others others' hothers
    exact Carries.of_ok (.cons hfirst hothers)

end

end Compile

mutual

theorem isEmpty_transcript : (filter : Filter) → filter.transcript.isEmpty = filter.isEmpty
  | ⟨connective, conditions, filters⟩ => by
    rw [transcript, isEmpty, isEmpty, allEmpty_transcript filters, List.isEmpty_map]

theorem allEmpty_transcript : (filters : List Filter) →
    allEmpty (transcriptAll filters) = allEmpty filters
  | [] => rfl
  | filter :: rest => by
    rw [transcriptAll, allEmpty, allEmpty, isEmpty_transcript filter, allEmpty_transcript rest]

end

end Filter

end RecordQuery
