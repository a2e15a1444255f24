import RecordQuery.Proofs.Predicate.Passes

/-!
How the compilation of a condition can leave the calendar without a fault that names the reason. As
long as the present has a local day, there are two ways: the upper end of a range that is the first
instant of the last day, which is moved to the end of that day; and the start of a fiscal year under
settings whose start month has no successor.
-/

namespace RecordQuery

namespace Instant

variable {t : Instant}

theorem eq_midnight (h : t.isMidnight = true) : t = midnight t.date := by
  rw [isMidnight, Bool.and_eq_true, beq_iff_eq, beq_iff_eq] at h
  apply eq_of_seconds
  · rw [seconds, h.1]
    rfl
  · exact h.2

theorem endOf_midnight_eq_none_iff (date : Date) :
    ((midnight date).addSeconds? 86400).bind subMillisecond? = none ↔ date = .greatest := by
  have hlow := date.number_least_le
  have hhigh := date.number_le_greatest
  constructor
  · intro hnone
    by_contra hne
    have hbefore : date.number < Date.greatest.number :=
      lt_of_le_of_ne hhigh fun heq => hne (Date.number_injective heq)
    obtain ⟨next, hnext⟩ := exists_seconds (date.number * 86400 + 86400) 0 (by omega) (by omega)
      (by decide)
    obtain ⟨last, hlast⟩ := exists_seconds (next.seconds - 1) 999000000 (by omega) (by omega)
      (by decide)
    rw [midnight_addSeconds?_eq_some_iff.mpr hnext, Option.bind_some,
      (subMillisecond?_eq_some_iff hnext.2).mpr hlast] at hnone
    contradiction
  · rintro rfl
    cases hmove : (midnight .greatest).addSeconds? 86400 with
    | none => rfl
    | some next =>
      have hseconds := (midnight_addSeconds?_eq_some_iff.mp hmove).1
      have hbound := next.seconds_bounds.2
      omega

end Instant

namespace Value

theorem optionCode_ne_overflow (value : Value) : value.optionCode ≠ .error .overflow := by
  unfold optionCode
  split <;> simp

theorem listedCodes_ne_overflow : (items : List Value) → listedCodes items ≠ .error .overflow := by
  intro items
  fun_induction listedCodes items with
  | case1 inner ih => exact ih
  | case2 items hitems =>
    intro h
    obtain ⟨item, -, hitem⟩ := exists_of_mapM_eq_error (map_eq_error_iff.mp h)
    exact optionCode_ne_overflow item hitem

theorem optionSet_ne_overflow (value : Value) : value.optionSet ≠ .error .overflow := by
  unfold optionSet
  split
  · exact listedCodes_ne_overflow _
  · simp
  · exact fun h => optionCode_ne_overflow _ (map_eq_error_iff.mp h)

theorem operandOptionSet_ne_overflow (values : List Value) :
    operandOptionSet values ≠ .error .overflow := by
  unfold operandOptionSet
  split
  · exact optionSet_ne_overflow _
  · exact listedCodes_ne_overflow _

end Value

namespace Catalog

theorem attributeType?_ne_overflow (catalog : Catalog) (entity name : String) :
    catalog.attributeType? entity name ≠ some (.error .overflow) := by
  unfold attributeType?
  split
  · simp
  · rename_i metadata _ _
    intro h
    obtain ⟨recorded, -, htype⟩ := Option.map_eq_some_iff.mp h
    split at htype <;> simp at htype
  · simp

theorem resolve_ne_overflow (catalog : Catalog) (entity name : String) :
    catalog.resolve entity name ≠ .error .overflow := by
  unfold resolve
  split
  · simp
  · cases htype : catalog.attributeType? entity name with
    | none =>
      dsimp only
      split <;> simp
    | some type =>
      cases type with
      | ok type => simp
      | error fault =>
        rintro h
        obtain rfl := Except.error.inj h
        exact catalog.attributeType?_ne_overflow entity name htype

end Catalog

theorem AliasMap.entity_ne_overflow (aliases : AliasMap) (aliasName : String) :
    aliases.entity aliasName ≠ .error .overflow := by
  unfold AliasMap.entity
  split <;> simp

namespace Scope

theorem aliased_ne_overflow (scope : Scope) (aliases : AliasMap) (alias? : Option String) :
    scope.aliased aliases alias? ≠ .error .overflow := by
  unfold aliased
  split
  · exact fun h => aliases.entity_ne_overflow _ (map_eq_error_iff.mp h)
  · simp

theorem accessor_ne_overflow (scope : Scope) (catalog : Catalog) (column : String) :
    scope.accessor catalog column ≠ .error .overflow :=
  fun h => catalog.resolve_ne_overflow _ _ (map_eq_error_iff.mp h)

end Scope

namespace Condition

variable {condition derived : Condition} {context : Context} {aliases : AliasMap}
variable {scope target : Scope} {accessor : Accessor} {values : List Value} {today : Date}

theorem wholeDay_eq_overflow_iff {high : Scalar} :
    wholeDay high = .error .overflow ↔ high = .dateTime (.midnight .greatest) := by
  cases high with
  | dateTime t =>
    rw [wholeDay, Scalar.dateTime.injEq]
    by_cases hmidnight : t.isMidnight = true
    · rw [if_pos hmidnight]
      have hnone := Instant.endOf_midnight_eq_none_iff t.date
      rw [← Instant.eq_midnight hmidnight] at hnone
      have hlast : t = .midnight .greatest ↔ t.date = .greatest := by
        constructor
        · rintro rfl
          rfl
        · intro hdate
          rw [Instant.eq_midnight hmidnight, hdate]
      rw [hlast, ← hnone]
      cases (t.addSeconds? 86400).bind Instant.subMillisecond? <;> simp
    · rw [if_neg hmidnight]
      constructor
      · intro h
        contradiction
      · rintro rfl
        exact absurd rfl hmidnight
  | _ => simp [wholeDay]

theorem compileRange_eq_overflow_iff (accessor : Accessor) (negated widened : Bool)
    (low high : Value) : compileRange accessor negated widened low high = .error .overflow ↔
      widened = true ∧
        high.scalar? accessor.type (some high) = some (.dateTime (.midnight .greatest)) := by
  unfold compileRange
  cases high.scalar? accessor.type (some high) with
  | none =>
    cases low.scalar? accessor.type (some low) <;> simp
  | some upper =>
    rw [Option.some.injEq, ← wholeDay_eq_overflow_iff]
    cases widened with
    | false =>
      cases low.scalar? accessor.type (some low) <;> simp
    | true =>
      simp only [if_true]
      cases hday : wholeDay upper with
      | error fault =>
        obtain rfl := wholeDay_error hday
        exact iff_of_true rfl ⟨trivial, rfl⟩
      | ok last =>
        cases low.scalar? accessor.type (some low) <;> simp

def WidensLastDay (condition : Condition) (type : AttributeType) (values : List Value) : Prop :=
  ∃ negated low high, condition.operator = .between negated ∧ values = [low, high] ∧
    high.scalar? type (some high) = some (.dateTime (.midnight .greatest))

theorem compileDay_ne_overflow (condition : Condition) (offset : UtcOffset) (accessor : Accessor)
    (test : DayTest) (negated : Bool) (operand : Value) :
    condition.compileDay offset accessor test negated operand ≠ .error .overflow := by
  unfold compileDay
  split <;> simp

theorem compileOperator_eq_overflow_iff {isWindow : Bool}
    (harity : condition.operator.arity.accepts values.length = true) :
    condition.compileOperator context accessor values isWindow = .error .overflow ↔
      isWindow = false ∧ condition.WidensLastDay accessor.type values := by
  unfold compileOperator WidensLastDay
  cases hoperator : condition.operator with
  | between negated =>
    rw [hoperator] at harity
    obtain ⟨low, high, rfl⟩ := eq_pair_of_accepts harity
    have hrange := compileRange_eq_overflow_iff accessor negated (!isWindow) low high
    simpa using hrange
  | on negated | onOrAfter | onOrBefore =>
    simp [compileDay_ne_overflow]
  | compare comparison =>
    cases comparison <;> simp
  | _ => simp

theorem compileKinship_ne_overflow (condition : Condition) (context : Context) (entity : String)
    (accessor : Accessor) (kinship : Kinship) (values : List Value) :
    condition.compileKinship context entity accessor kinship values ≠ .error .overflow := by
  unfold compileKinship
  split
  · simp
  · split <;> simp

theorem compileOptions_ne_overflow (condition : Condition) (accessor : Accessor) :
    condition.compileOptions accessor ≠ .error .overflow := by
  have hcodes := Value.operandOptionSet_ne_overflow condition.values
  have hequal : ∀ negated, (do
      let codes ← Value.operandOptionSet condition.values
      if codes.isEmpty then return .constant false
      else return .value accessor (.setEquals codes) negated none :
      Except Error Predicate) ≠ .error .overflow := by
    intro negated h
    rcases bind_eq_error_iff.mp h with h | ⟨codes, -, h⟩
    · exact hcodes h
    · split at h <;> contradiction
  unfold compileOptions
  cases condition.operator with
  | compare comparison =>
    cases comparison with
    | equal => exact hequal false
    | notEqual => exact hequal true
    | _ => simp
  | oneOf negated => exact hequal negated
  | containValues negated =>
    intro h
    rcases bind_eq_error_iff.mp h with h | ⟨codes, -, h⟩
    · exact hcodes h
    · contradiction
  | _ => simp

theorem otherColumn_ne_overflow (aliases : AliasMap) (scope : Scope) (other : String) :
    otherColumn aliases scope other ≠ .error .overflow := by
  unfold otherColumn
  dsimp only
  split
  · simp
  · exact fun h => aliases.entity_ne_overflow _ (map_eq_error_iff.mp h)

theorem compileColumns_ne_overflow (condition : Condition) (catalog : Catalog) (aliases : AliasMap)
    (scope : Scope) (left : Accessor) (other : String) :
    condition.compileColumns catalog aliases scope left other ≠ .error .overflow := by
  unfold compileColumns
  split
  · intro h
    rcases bind_eq_error_iff.mp h with h | ⟨found, -, h⟩
    · exact otherColumn_ne_overflow _ _ _ h
    · rcases bind_eq_error_iff.mp h with h | ⟨right, -, h⟩
      · exact found.1.accessor_ne_overflow _ _ h
      · contradiction
  · simp

theorem suits_ne_overflow (condition : Condition) (type : AttributeType) :
    condition.suits type ≠ .error .overflow := by
  unfold suits
  split
  · simp
  · split <;> simp

theorem suits_of_operator {type : AttributeType}
    (hoptions : ∀ negated, condition.operator ≠ .containValues negated)
    (hdate : condition.operator.isDate = true → type.isTemporal = true) :
    condition.suits type = .ok () := by
  unfold suits
  split
  · rename_i negated hcase
    exact absurd hcase (hoptions negated)
  · apply if_neg
    simpa using hdate

/-- The column holds instants, and the start of a fiscal year is asked for that cannot be told. -/
def LosesFiscalStart (condition : Condition) (present : Present) (type : AttributeType)
    (values : List Value) : Prop :=
  type.isTemporal = true ∧ present.fiscal.Endless ∧
    condition.AsksFiscalStart present.fiscal values

theorem WidensLastDay.suits {type : AttributeType} (h : condition.WidensLastDay type values) :
    condition.suits type = .ok () := by
  obtain ⟨negated, low, high, hoperator, -⟩ := h
  apply suits_of_operator <;> simp [hoperator, Operator.isDate, Operator.isFiscal]

theorem LosesFiscalStart.suits {type : AttributeType}
    (h : condition.LosesFiscalStart context.present type values) :
    condition.suits type = .ok () := by
  refine suits_of_operator (fun negated hoperator => ?_) fun _ => h.1
  exact not_asksFiscalStart (by rw [hoperator]; rfl) _ _ h.2.2

theorem WidensLastDay.window?_eq {type : AttributeType} (h : condition.WidensLastDay type values)
    (htoday : context.present.today = .ok today) :
    condition.window? values context.present = .ok none := by
  obtain ⟨negated, low, high, hoperator, -⟩ := h
  rw [window?_of_not_namesWindow (by rw [hoperator]; rfl), htoday]
  rfl

theorem isTemporal_of_asksFiscalStart {type : AttributeType}
    (hsuits : condition.suits type = .ok ())
    (hasks : condition.AsksFiscalStart context.present.fiscal values) : type.isTemporal = true := by
  apply isTemporal_of_suits hsuits
  by_contra hdate
  refine not_asksFiscalStart (Bool.eq_false_iff.mpr fun hfiscal => hdate ?_) _ _ hasks
  unfold Operator.isDate
  split
  all_goals first | rfl | exact hfiscal

theorem windowOrOperator_eq_overflow_iff (htoday : context.present.today = .ok today)
    (hsuits : condition.suits accessor.type = .ok ())
    (harity : condition.operator.arity.accepts values.length = true) :
    (do
      match ← condition.window? values context.present with
      | some derived =>
        derived.compileOperator context accessor (Value.flattenAll derived.values) true
      | none => condition.compileOperator context accessor values false) = .error .overflow ↔
      condition.WidensLastDay accessor.type values ∨
        condition.LosesFiscalStart context.present accessor.type values := by
  rw [bind_eq_error_iff, window?_eq_overflow_iff htoday]
  constructor
  · rintro (⟨hendless, hasks⟩ | ⟨derived?, hwindow, hnext⟩)
    · exact .inr ⟨isTemporal_of_asksFiscalStart hsuits hasks, hendless, hasks⟩
    · cases derived? with
      | none => exact .inl ((compileOperator_eq_overflow_iff harity).mp hnext).2
      | some derived =>
        -- The range of a window is not widened.
        have haccepts := (saysWindowOf_of_window? hwindow).accepts
        exact absurd ((compileOperator_eq_overflow_iff haccepts).mp hnext).1 (by simp)
  · rintro (hwidens | ⟨-, hendless, hasks⟩)
    · exact .inr ⟨none, hwidens.window?_eq htoday,
        (compileOperator_eq_overflow_iff harity).mpr ⟨rfl, hwidens⟩⟩
    · exact .inl ⟨hendless, hasks⟩

theorem compileAttribute_eq_overflow_iff (htoday : context.present.today = .ok today)
    (harity : condition.operator.arity.accepts values.length = true) :
    condition.compileAttribute context target accessor values = .error .overflow ↔
      condition.WidensLastDay accessor.type values ∨
        condition.LosesFiscalStart context.present accessor.type values := by
  rw [compileAttribute_eq]
  cases hsuits : condition.suits accessor.type with
  | error fault =>
    -- An operator that does not suit the column is refused before either of the two can happen.
    refine iff_of_false (fun h => ?_) (fun h => ?_)
    · obtain rfl := Except.error.inj h
      exact condition.suits_ne_overflow accessor.type hsuits
    · exact nomatch hsuits.symm.trans (h.elim WidensLastDay.suits LosesFiscalStart.suits)
  | ok _ =>
    have hrest := windowOrOperator_eq_overflow_iff htoday hsuits harity
    rw [ok_bind]
    cases hoperator : condition.operator with
    | kin kinship =>
      refine iff_of_false (compileKinship_ne_overflow _ _ _ _ _ _) ?_
      rintro (⟨_, _, _, hcase, -⟩ | ⟨-, -, hasks⟩)
      · rw [hoperator] at hcase
        contradiction
      · exact not_asksFiscalStart (by rw [hoperator]; rfl) _ _ hasks
    | _ => exact hrest

theorem compileOperands_eq_overflow_iff (htoday : context.present.today = .ok today) :
    condition.compileOperands context target accessor = .error .overflow ↔
      accessor.type ≠ .options ∧
      condition.operator.arity.accepts (Value.flattenAll condition.values).length = true ∧
        (condition.WidensLastDay accessor.type (Value.flattenAll condition.values) ∨
          condition.LosesFiscalStart context.present accessor.type
            (Value.flattenAll condition.values)) := by
  rw [compileOperands_eq]
  by_cases harity :
      condition.operator.arity.accepts (Value.flattenAll condition.values).length = true
  · rw [if_pos harity]
    by_cases htype : accessor.type = .options
    · rw [if_pos htype]
      exact iff_of_false (compileOptions_ne_overflow _ _) fun h => h.1 htype
    · rw [if_neg htype, compileAttribute_eq_overflow_iff htoday harity]
      exact ⟨fun h => ⟨htype, harity, h⟩, fun h => h.2.2⟩
  · rw [if_neg harity]
    refine iff_of_false (fun h => ?_) fun h => harity h.2.1
    have hfault := Except.error.inj h
    contradiction

structure ReachesOperands (condition : Condition) (context : Context) (aliases : AliasMap)
    (scope : Scope) (accessor : Accessor) : Prop where
  outer_eq : condition.outer = false
  other_eq : condition.other? = none
  resolves : ∃ target, scope.aliased aliases condition.alias? = .ok target ∧
    target.accessor context.catalog condition.column = .ok accessor
  type_ne : accessor.type ≠ .options
  accepts : condition.operator.arity.accepts (Value.flattenAll condition.values).length = true

theorem compile_eq_overflow_iff (htoday : context.present.today = .ok today) :
    condition.compile context aliases scope = .error .overflow ↔
      ∃ accessor, condition.ReachesOperands context aliases scope accessor ∧
        (condition.WidensLastDay accessor.type (Value.flattenAll condition.values) ∨
          condition.LosesFiscalStart context.present accessor.type
            (Value.flattenAll condition.values)) := by
  constructor
  · intro h
    unfold compile at h
    split at h
    · contradiction
    · rename_i houter
      rcases bind_eq_error_iff.mp h with h | ⟨target, htarget, h⟩
      · exact absurd h (scope.aliased_ne_overflow _ _)
      rcases bind_eq_error_iff.mp h with h | ⟨accessor, haccessor, h⟩
      · exact absurd h (target.accessor_ne_overflow _ _)
      cases hother : condition.other? with
      | some other =>
        rw [hother] at h
        exact absurd h (compileColumns_ne_overflow _ _ _ _ _ _)
      | none =>
        rw [hother] at h
        obtain ⟨htype, harity, h⟩ := (compileOperands_eq_overflow_iff htoday).mp h
        exact ⟨accessor, ⟨Bool.eq_false_iff.mpr houter, hother, ⟨target, htarget, haccessor⟩,
          htype, harity⟩, h⟩
  · rintro ⟨accessor, ⟨houter, hother, ⟨target, htarget, haccessor⟩, htype, harity⟩, h⟩
    rw [compile_eq houter hother htarget haccessor]
    exact (compileOperands_eq_overflow_iff htoday).mpr ⟨htype, harity, h⟩

/-- No operand is taken from a position that the operator does not have, whatever would come of it.
The calendar is left without a fault that says so where a written range is widened over the end of
its last day, and where a window asks for the start of a fiscal year that has no month behind it;
everywhere else there is a predicate, or a fault with its reason. -/
theorem compile_overflow_iff (htoday : context.now.localDate? context.catalog.offset = some today)
    (condition : Condition) (aliases : AliasMap) (scope : Scope) :
    (∀ missing passes, compileIn missing context aliases scope (passes + 2) false condition =
      condition.compile context aliases scope) ∧
    (condition.compile context aliases scope = .error .overflow ↔
      ∃ accessor, condition.ReachesOperands context aliases scope accessor ∧
        (condition.WidensLastDay accessor.type (Value.flattenAll condition.values) ∨
          condition.LosesFiscalStart context.present accessor.type
            (Value.flattenAll condition.values))) :=
  ⟨fun missing passes => compileIn_eq missing condition context aliases scope passes,
    compile_eq_overflow_iff (Present.today_eq_ok_iff.mpr htoday)⟩

def monthless : Context :=
  { westward with catalog := { westward.catalog with fiscal := ⟨4294967295, 1, .annually⟩ } }

theorem compile_overflow_iff_monthless :
    monthless.now.localDate? monthless.catalog.offset = some .greatest ∧
      compile ⟨"since", none, .fiscal .this .year, [], none, false⟩ monthless [] (.root "account") =
        .error .overflow ∧
      compile ⟨"since", none, .compare .less, [], none, false⟩ monthless [] (.root "account") ≠
        .error .overflow := by
  have htoday : monthless.now.localDate? monthless.catalog.offset = some .greatest := by decide
  have haccessor : (Scope.root "account").accessor monthless.catalog "since" =
    .ok sinceAccessor := rfl
  refine ⟨htoday, (compile_overflow_iff htoday _ _ _).2.mpr ?_, fun h => ?_⟩
  · exact ⟨sinceAccessor, ⟨rfl, rfl, ⟨_, rfl, haccessor⟩, by decide, rfl⟩,
      .inr ⟨rfl, show limit32 ≤ 4294967295 + 1 by decide, trivial⟩⟩
  · obtain ⟨accessor, hreaches, -⟩ := (compile_overflow_iff htoday _ _ _).2.mp h
    exact nomatch hreaches.accepts

def sinceUpToLastDay : Condition :=
  ⟨"since", none, .between false, [.dateTime .least, .dateTime (.midnight .greatest)], none, false⟩

theorem exists_compile_overflow : ¬ ∀ (condition : Condition) (context : Context)
    (aliases : AliasMap) (scope : Scope) (today : Date),
    context.now.localDate? context.catalog.offset = some today →
    condition.compile context aliases scope ≠ .error .overflow := by
  intro h
  have htoday : westward.now.localDate? westward.catalog.offset = some .greatest := by decide
  have haccessor : (Scope.root "account").accessor westward.catalog "since" =
    .ok sinceAccessor := rfl
  have hwidens : sinceUpToLastDay.WidensLastDay .dateTime
      [.dateTime .least, .dateTime (.midnight .greatest)] :=
    ⟨false, .dateTime .least, .dateTime (.midnight .greatest), rfl, rfl, rfl⟩
  have hreaches : sinceUpToLastDay.ReachesOperands westward [] (.root "account") sinceAccessor :=
    ⟨rfl, rfl, ⟨_, rfl, haccessor⟩, by decide, rfl⟩
  have hday : westward.present.today = .ok .greatest := Present.today_eq_ok_iff.mpr htoday
  exact h sinceUpToLastDay westward [] (.root "account") .greatest htoday
    ((compile_eq_overflow_iff hday).mpr ⟨sinceAccessor, hreaches, .inl hwidens⟩)

end Condition

end RecordQuery
