import RecordQuery.Proofs.Predicate.FiscalStarts
import RecordQuery.Proofs.Predicate.Operands

/-!
The compilation of a condition in passes: a condition that names a window is rewritten, and compiled
in another pass. Rewriting is safe, no condition takes more than two passes, and every operand that
a pass takes by its position is there.
-/

namespace RecordQuery.Condition

def operandAt (missing : Error) (values : List Value) (position : Nat) : Except Error Value :=
  match values[position]? with
  | some operand => .ok operand
  | none => .error missing

def kinshipAt (missing : Error) (condition : Condition) (context : Context) (entity : String)
    (accessor : Accessor) (kinship : Kinship) (values : List Value) : Except Error Predicate :=
  match context.catalog.parentColumn? entity with
  | none => .error (.setting (.noHierarchy entity))
  | some parentColumn => do
    match operandId? (← operandAt missing values 0) with
    | none => .error (.operand (.idNeeded condition.operator condition.column))
    | some id =>
      let ids := kinOf ⟨context.store, entity, parentColumn⟩ kinship id
      return .value accessor (.idIn ids) (kinship == .notUnder) none

def operatorAt (missing : Error) (condition : Condition) (context : Context) (accessor : Accessor)
    (values : List Value) (isWindow : Bool) : Except Error Predicate := do
  let offset := context.catalog.offset
  match condition.operator with
  | .compare .equal => return compileAnyOf accessor values false
  | .compare .notEqual => return compileAnyOf accessor values true
  | .oneOf negated => return compileAnyOf accessor values negated
  | .compare comparison =>
    return compileComparison accessor comparison (← operandAt missing values 0)
  | .text form negated =>
    return .like accessor (textPattern form (← operandAt missing values 0).display) negated
  | .null negated => return .isNull accessor negated
  | .between negated =>
    compileRange accessor negated (!isWindow) (← operandAt missing values 0)
      (← operandAt missing values 1)
  | .on negated => condition.compileDay offset accessor .on negated (← operandAt missing values 0)
  | .onOrAfter =>
    condition.compileDay offset accessor .onOrAfter false (← operandAt missing values 0)
  | .onOrBefore =>
    condition.compileDay offset accessor .onOrBefore false (← operandAt missing values 0)
  | .caller id negated =>
    return .value accessor (.anyOf [.uuid (context.callerId id)]) negated none
  | operator => .error (.operator (.notForAttribute operator condition.column))

def suits (condition : Condition) (type : AttributeType) : Except Error Unit :=
  match condition.operator with
  | .containValues _ => .error (.operator (.optionsOnly condition.operator condition.column))
  | operator =>
    if operator.isDate && !type.isTemporal then
      .error (.operator (.datesOnly operator condition.column type))
    else
      .ok ()

def passOperands (missing : Error) (condition : Condition) (context : Context) (target : Scope)
    (accessor : Accessor) (isWindow : Bool) (next : Condition → Except Error Predicate) :
    Except Error Predicate :=
  let values := Value.flattenAll condition.values
  if condition.operator.arity.accepts values.length then
    if accessor.type = .options then condition.compileOptions accessor
    else do
      condition.suits accessor.type
      match condition.operator with
      | .kin kinship => kinshipAt missing condition context target.entity accessor kinship values
      | _ =>
        match ← condition.window? values context.present with
        | some derived => next derived
        | none => operatorAt missing condition context accessor values isWindow
  else
    .error (.operandCount condition.operator values.length)

/-- The compilation in a number of passes. A pass too many ends like an operand too few. -/
def compileIn (missing : Error) (context : Context) (aliases : AliasMap) (scope : Scope) :
    (passes : Nat) → (isWindow : Bool) → Condition → Except Error Predicate
  | 0, _, _ => .error missing
  | passes + 1, isWindow, condition => do
    if condition.outer then
      return .constant true
    let target ← scope.aliased aliases condition.alias?
    let accessor ← target.accessor context.catalog condition.column
    match condition.other? with
    | some other => condition.compileColumns context.catalog aliases target accessor other
    | none =>
      passOperands missing condition context target accessor isWindow
        (compileIn missing context aliases scope passes true)

variable {condition derived : Condition} {context : Context} {aliases : AliasMap}
variable {missing : Error} {scope target : Scope} {accessor : Accessor} {values : List Value}
variable {today : Date}

theorem operandAt_eq {position : Nat} (h : position < values.length) :
    operandAt missing values position = .ok values[position] := by
  rw [operandAt, List.getElem?_eq_getElem h]

theorem kinshipAt_eq {kinship : Kinship} {entity : String} (h : 0 < values.length) :
    kinshipAt missing condition context entity accessor kinship values =
      condition.compileKinship context entity accessor kinship values := by
  unfold kinshipAt compileKinship
  cases context.catalog.parentColumn? entity with
  | none => rfl
  | some parentColumn =>
    dsimp only
    rw [operandAt_eq h, ok_bind, List.head?_eq_getElem?, List.getElem?_eq_getElem h,
      Option.bind_some]
    rfl

theorem eq_single_of_accepts (h : (Arity.exactly 1).accepts values.length = true) :
    ∃ operand, values = [operand] :=
  List.length_eq_one_iff.mp (beq_iff_eq.mp h)

theorem eq_pair_of_accepts (h : (Arity.exactly 2).accepts values.length = true) :
    ∃ low high, values = [low, high] :=
  match values, h with
  | [low, high], _ => ⟨low, high, rfl⟩

theorem operatorAt_eq (missing : Error) (context : Context) (accessor : Accessor) (isWindow : Bool)
    (h : condition.operator.arity.accepts values.length = true) :
    operatorAt missing condition context accessor values isWindow =
      condition.compileOperator context accessor values isWindow := by
  unfold operatorAt compileOperator
  cases hoperator : condition.operator with
  | compare comparison =>
    rw [hoperator] at h
    cases comparison with
    | equal | notEqual => rfl
    | greater | greaterEqual | less | lessEqual =>
      obtain ⟨operand, rfl⟩ := eq_single_of_accepts h
      rfl
  | text form negated | on negated | onOrAfter | onOrBefore =>
    rw [hoperator] at h
    obtain ⟨operand, rfl⟩ := eq_single_of_accepts h
    rfl
  | between negated =>
    rw [hoperator] at h
    obtain ⟨low, high, rfl⟩ := eq_pair_of_accepts h
    rfl
  | _ => rfl

theorem compileAttribute_eq (condition : Condition) (context : Context) (target : Scope)
    (accessor : Accessor) (values : List Value) :
    condition.compileAttribute context target accessor values = (do
      condition.suits accessor.type
      match condition.operator with
      | .kin kinship => condition.compileKinship context target.entity accessor kinship values
      | _ =>
        match ← condition.window? values context.present with
        | some derived =>
          derived.compileOperator context accessor (Value.flattenAll derived.values) true
        | none => condition.compileOperator context accessor values false) := by
  obtain ⟨column, alias?, operator, operands, other?, outer⟩ := condition
  unfold compileAttribute suits
  cases operator with
  | containValues negated => rfl
  | _ =>
    dsimp only
    split <;> rfl

theorem isTemporal_of_suits {type : AttributeType} (h : condition.suits type = .ok ())
    (hdate : condition.operator.isDate = true) : type.isTemporal = true := by
  unfold suits at h
  split at h
  · contradiction
  · rw [hdate] at h
    by_contra htype
    rw [Bool.eq_false_iff.mpr htype] at h
    contradiction

theorem passWindow_eq {next : Condition → Except Error Predicate}
    (harity : condition.operator.arity.accepts values.length = true)
    (hnext : ∀ derived, condition.window? values context.present = .ok (some derived) →
      next derived = derived.compileOperator context accessor (Value.flattenAll derived.values)
        true) :
    (do
      match ← condition.window? values context.present with
      | some derived => next derived
      | none => operatorAt missing condition context accessor values false) = (do
      match ← condition.window? values context.present with
      | some derived =>
        derived.compileOperator context accessor (Value.flattenAll derived.values) true
      | none => condition.compileOperator context accessor values false) := by
  cases hfound : condition.window? values context.present with
  | error fault => rfl
  | ok derived? =>
    cases derived? with
    | none => exact operatorAt_eq missing context accessor false harity
    | some derived => exact hnext derived hfound

theorem passOperands_eq {next : Condition → Except Error Predicate}
    (hnext : accessor.type ≠ .options → condition.suits accessor.type = .ok () →
      ∀ derived, condition.window? (Value.flattenAll condition.values) context.present =
        .ok (some derived) → next derived = derived.compileOperator context accessor
          (Value.flattenAll derived.values) true) :
    passOperands missing condition context target accessor false next =
      condition.compileOperands context target accessor := by
  rw [compileOperands_eq, compileAttribute_eq, passOperands]
  split
  · rename_i harity
    split
    · rfl
    · rename_i htype
      cases hsuits : condition.suits accessor.type with
      | error fault => rfl
      | ok _ =>
        cases hoperator : condition.operator with
        | kin kinship =>
          rw [hoperator] at harity
          obtain ⟨operand, hoperand⟩ := eq_single_of_accepts harity
          exact kinshipAt_eq (by rw [hoperand]; exact Nat.one_pos)
        | _ => exact passWindow_eq harity (hnext htype hsuits)
  · rfl

theorem isDate_of_window? (h : condition.window? values context.present = .ok (some derived)) :
    condition.operator.isDate = true := by
  obtain ⟨today, htoday, h⟩ := bind_eq_ok_iff.mp h
  cases hcase : condition.operator with
  | compare _ | text _ _ | oneOf _ | between _ | null _ | caller _ _ | kin _ | containValues _ =>
    rw [hcase] at h
    exact nomatch Except.ok.inj h
  | _ => rfl

theorem SaysWindowOf.passOperands_eq (h : derived.SaysWindowOf condition)
    (htoday : context.present.today = .ok today) (missing : Error) (target : Scope)
    (accessor : Accessor) (isWindow : Bool) (next : Condition → Except Error Predicate) :
    passOperands missing derived context target accessor isWindow next =
      if accessor.type = .options then derived.compileOptions accessor
      else derived.suits accessor.type >>= fun _ =>
        operatorAt missing derived context accessor (Value.flattenAll derived.values) isWindow := by
  have hagain := h.window?_eq htoday (Value.flattenAll derived.values)
  have hmem := h.operator_mem
  simp only [List.mem_cons, List.not_mem_nil, or_false] at hmem
  rw [passOperands, if_pos h.accepts, hagain]
  rcases hmem with hcase | hcase | hcase <;> rw [hcase] <;> rfl

theorem SaysWindowOf.compileIn_eq (h : derived.SaysWindowOf condition)
    (htoday : context.present.today = .ok today) (missing : Error) (aliases : AliasMap)
    (scope : Scope) (passes : Nat) (isWindow : Bool) :
    compileIn missing context aliases scope (passes + 1) isWindow derived =
      compileIn missing context aliases scope 1 isWindow derived := by
  rw [compileIn, compileIn]
  simp only [h.passOperands_eq htoday]

theorem compileIn_window (hwindow : condition.window? values context.present = .ok (some derived))
    (houter : condition.outer = false)
    (htarget : scope.aliased aliases condition.alias? = .ok target)
    (haccessor : target.accessor context.catalog condition.column = .ok accessor)
    (htype : accessor.type ≠ .options) (hdate : accessor.type.isTemporal = true) (passes : Nat) :
    compileIn missing context aliases scope (passes + 1) true derived =
      derived.compileOperator context accessor (Value.flattenAll derived.values) true := by
  obtain ⟨today, htoday⟩ := exists_today hwindow
  have hfixed := saysWindowOf_of_window? hwindow
  have hsuits : derived.suits accessor.type = .ok () := by
    have hmem := hfixed.operator_mem
    simp only [List.mem_cons, List.not_mem_nil, or_false] at hmem
    unfold suits
    rcases hmem with hcase | hcase | hcase <;> rw [hcase] <;> simp [hdate]
  rw [compileIn, hfixed.outer_eq, houter, if_neg Bool.false_ne_true, hfixed.alias_eq, htarget,
    ok_bind, hfixed.column_eq, haccessor, ok_bind, hfixed.other_eq]
  dsimp only
  rw [hfixed.passOperands_eq htoday, if_neg htype, hsuits, ok_bind,
    operatorAt_eq missing context accessor true hfixed.accepts]

theorem compileIn_eq (missing : Error) (condition : Condition) (context : Context)
    (aliases : AliasMap) (scope : Scope) (passes : Nat) :
    compileIn missing context aliases scope (passes + 2) false condition =
      condition.compile context aliases scope := by
  rw [compileIn, compile]
  cases houter : condition.outer with
  | true => rfl
  | false =>
    rw [if_neg Bool.false_ne_true, if_neg Bool.false_ne_true]
    cases htarget : scope.aliased aliases condition.alias? with
    | error fault => rfl
    | ok target =>
      rw [ok_bind, ok_bind]
      cases haccessor : target.accessor context.catalog condition.column with
      | error fault => rfl
      | ok accessor =>
        rw [ok_bind, ok_bind]
        cases condition.other? with
        | some other => rfl
        | none =>
          refine passOperands_eq fun htype hsuits derived hwindow => ?_
          exact compileIn_window hwindow houter htarget haccessor htype
            (isTemporal_of_suits hsuits (isDate_of_window? hwindow)) passes

/-- No number on the way to a window leaves its word, and nothing but an operand is refused. What is
said of the window is not rewritten again, so that a single pass compiles it. -/
theorem window?_safe {present : Present} (valid : present.fiscal.validate = .ok ())
    (htoday : present.now.localDate? present.offset = some today) (condition : Condition)
    (values : List Value) :
    condition.windowInWords? values present = condition.window? values present ∧
      (∀ fault, condition.window? values present = .error fault →
        ∃ reason, fault = .operand reason) ∧
      ∀ derived, condition.window? values present = .ok (some derived) →
        derived.SaysWindowOf condition ∧
          (∀ others, derived.window? others present = .ok none) ∧
          ∀ (context : Context), context.present = present →
            ∀ missing aliases scope passes isWindow,
              compileIn missing context aliases scope (passes + 1) isWindow derived =
                compileIn missing context aliases scope 1 isWindow derived := by
  have hday : present.today = .ok today := Present.today_eq_ok_iff.mpr htoday
  have hends := condition.window?_ends (FiscalSettings.startMonth_lt_of_validate valid) hday values
  refine ⟨windowInWords?_eq valid values, ?_, ?_⟩
  · intro fault hfault
    rw [hfault] at hends
    exact hends
  · intro derived hderived
    rw [hderived] at hends
    have hfixed : derived.SaysWindowOf condition := hends derived rfl
    refine ⟨hfixed, hfixed.window?_eq hday, ?_⟩
    rintro context rfl missing aliases scope passes isWindow
    exact hfixed.compileIn_eq hday missing aliases scope passes isWindow

theorem window?_safe_weeks :
    let present : Present := ⟨.least, ⟨7200, by decide⟩, ⟨12, 31, .fourWeek⟩⟩
    let condition : Condition := ⟨"createdon", none, .span .last .weeks, [], none, false⟩
    let values : List Value := [.int 4611686018427387903]
    present.fiscal.validate = .ok () ∧
      present.now.localDate? present.offset = some .least ∧
      condition.windowInWords? values present = condition.window? values present ∧
      condition.window? values present =
        .error (.operand (.beyondCalendar (.span .last .weeks) "createdon")) := by
  intro present condition values
  have valid : present.fiscal.validate = .ok () := rfl
  have htoday : present.now.localDate? present.offset = some .least := by decide
  refine ⟨valid, htoday, (window?_safe valid htoday condition values).1, ?_⟩
  have hday : present.today = .ok .least := Present.today_eq_ok_iff.mpr htoday
  have hcount : condition.countOperand values 0 = .ok 4611686018427387903 := rfl
  have hmove : Date.least.addDays? (7 * -4611686018427387903) = none :=
    Date.addDays?_eq_none (by decide)
  have hspan : condition.spanWindow present .least .last .weeks 4611686018427387903 =
      .error condition.beyondCalendar := by
    rw [spanWindow_last (by decide), shiftDay?, hmove]
    rfl
  exact bind_eq_error_iff.mpr (.inr ⟨_, hday, bind_eq_error_iff.mpr
    (.inr ⟨_, hcount, bind_eq_error_iff.mpr (.inl hspan)⟩)⟩)

end RecordQuery.Condition
