import RecordQuery.Proofs.Predicate.Operands
import RecordQuery.Proofs.Predicate.TextOperands

namespace RecordQuery

theorem Scalar.equals_iff_of_isName {x : Scalar} (h : x.isName = true) (y : Scalar) :
    x.equals y = true ↔ y = x := by
  unfold equals
  rw [beq_iff_eq]
  cases x with
  | text content =>
    cases y with
    | text other =>
      simp only [order?, Option.some.injEq, Scalar.text.injEq]
      rw [Std.compare_eq_iff_eq, eq_comm]
    | _ => simp [order?]
  | uuid id =>
    cases y with
    | uuid other =>
      have hbits : id.toNat = other.toNat ↔ other = id := by
        rw [Uuid.toNat, Uuid.toNat, ← BitVec.toNat_eq, eq_comm]
        exact ⟨fun hequal => congrArg Uuid.mk hequal, fun hequal => congrArg Uuid.bits hequal⟩
      simp only [order?, Option.some.injEq, Scalar.uuid.injEq, ← hbits]
      exact Nat.compare_eq_eq
    | _ => simp [order?]
  | _ => contradiction

namespace Value

variable {type : AttributeType} {sample? : Option Value} {operand stored : Value}
variable {target : Reference}

def Identifies (type : AttributeType) (target : Reference) (operand : Value) : Prop :=
  operand.scalar? type (some operand) = some (.uuid target.id)

def Spells (type : AttributeType) (target : Reference) (operand : Value) : Prop :=
  operand.scalar? type (some operand) = some (.text (Text.lowercase (target.name?.getD "")))

/-- The operand stands for the reference, where the sample says how references are read. -/
def Denotes (type : AttributeType) (sample? : Option Value) (target : Reference)
    (operand : Value) : Prop :=
  if namesReference sample? then operand.Spells type target else operand.Identifies type target

def FirstAgrees (type : AttributeType) (operands : List Value) (target : Reference) : Prop :=
  (∃ operand ∈ operands, operand.Denotes type operands.head? target) ↔
    ∃ operand ∈ operands, operand.Denotes type (some operand) target

theorem firstAgrees_of_alike {operands : List Value}
    (h : ∀ operand ∈ operands, namesReference (some operand) = namesReference operands.head?) :
    FirstAgrees type operands target := by
  refine exists_congr fun operand => and_congr_right fun hoperand => ?_
  rw [Denotes, Denotes, h operand hoperand]

theorem meets_reference : Meets type sample? (.reference target) operand ↔
    operand.Denotes type sample? target := by
  have hread {x : Scalar} (hstored : (reference target).scalar? type sample? = some x)
      (hname : x.isName = true) : Meets type sample? (.reference target) operand ↔
        operand.scalar? type (some operand) = some x := by
    constructor
    · rintro ⟨_, y, hx, hy, hequals⟩
      obtain rfl := Option.some.inj (hstored.symm.trans hx)
      rw [hy, (Scalar.equals_iff_of_isName hname y).mp hequals]
    · intro hy
      exact ⟨x, x, hstored, hy, (Scalar.equals_iff_of_isName hname x).mpr rfl⟩
  unfold Denotes
  split
  · rename_i hnames
    exact hread (by simp [scalar?, unwrap, hnames]) rfl
  · rename_i hnames
    exact hread (by simp [scalar?, unwrap, hnames]) rfl

theorem meets_congr {accessor : Accessor} {row : Record}
    (hread : accessor.readPresent? row = some stored) (h : ∀ target, stored ≠ .reference target)
    (other? : Option Value) :
    Meets type other? stored operand ↔ Meets type sample? stored operand := by
  have hscalar : stored.scalar? type other? = stored.scalar? type sample? := by
    unfold scalar?
    rw [Accessor.unwrap_of_read? (Option.filter_eq_some_iff.mp hread).1]
    cases stored with
    | reference target => exact absurd rfl (h target)
    | _ => rfl
  rw [Meets, Meets, hscalar]

end Value

namespace Condition

def withValues (condition : Condition) (values : List Value) : Condition :=
  { condition with values }

def equalTo (condition : Condition) (operand : Value) : Condition :=
  (condition.saying (.compare .equal)).withValues [operand]

section Compile

variable {accessor : Accessor} {values : List Value} {row : Record}

theorem accepts_compileAnyOf_iff_each :
    ((compileAnyOf accessor values false).Accepts row ↔
        ∃ operand ∈ values, (compileAnyOf accessor [operand] false).Accepts row) ↔
      ∀ reference, accessor.readPresent? row = some (.reference reference) →
        Value.FirstAgrees accessor.type values reference := by
  simp only [accepts_compileAnyOf, List.head?_cons, List.mem_singleton, exists_eq_left]
  cases hread : accessor.readPresent? row with
  | none => simp
  | some stored =>
    simp only [Option.some.injEq, exists_eq_left']
    obtain ⟨target, rfl⟩ | hstored := exists_or_forall_not fun target => stored = .reference target
    · simp only [Value.meets_reference, Value.reference.injEq, forall_eq']
      rfl
    · refine iff_of_true (exists_congr fun operand => and_congr_right fun _ => ?_) fun target h =>
        absurd h (hstored target)
      exact Value.meets_congr hread hstored _

theorem accepts_compileAnyOf_of_perm {others : List Value} (hperm : others.Perm values)
    (hfirst : Value.namesReference others.head? = Value.namesReference values.head? ∨
      ∀ reference, accessor.readPresent? row ≠ some (.reference reference)) :
    (compileAnyOf accessor others false).Accepts row ↔
      (compileAnyOf accessor values false).Accepts row := by
  simp only [accepts_compileAnyOf]
  refine exists_congr fun stored => and_congr_right fun hread => ?_
  have hmeets (operand : Value) : Value.Meets accessor.type others.head? stored operand ↔
      Value.Meets accessor.type values.head? stored operand := by
    obtain ⟨target, rfl⟩ | hstored := exists_or_forall_not fun target => stored = .reference target
    · have hnames := hfirst.resolve_right fun h => h target hread
      rw [Value.meets_reference, Value.meets_reference, Value.Denotes, Value.Denotes, hnames]
    · exact Value.meets_congr hread hstored _
  simp only [hperm.mem_iff, hmeets]

variable {condition : Condition} {context : Context} {aliases : AliasMap} {scope target : Scope}
variable {p : Predicate}

theorem compileOperator_any (h : condition.operator = .oneOf false ∨
    condition.operator = .compare .equal) :
    condition.compileOperator context accessor values false =
      .ok (compileAnyOf accessor values false) := by
  obtain ⟨column, alias?, operator, operands, other?, outer⟩ := condition
  rcases h with h | h <;>
  · obtain rfl : operator = _ := h
    rfl

theorem eq_compileAnyOf (h : condition.operator = .oneOf false ∨
    condition.operator = .compare .equal) (houter : condition.outer = false)
    (hother : condition.other? = none)
    (htarget : scope.aliased aliases condition.alias? = .ok target)
    (haccessor : target.accessor context.catalog condition.column = .ok accessor)
    (htype : accessor.type ≠ .options) (hp : condition.compile context aliases scope = .ok p) :
    p = compileAnyOf accessor (Value.flattenAll condition.values) false ∧
      ∃ today, context.present.today = .ok today := by
  rw [compile_eq houter hother htarget haccessor] at hp
  have hcompares : condition.operator.comparesOperands = true := by
    rcases h with h | h <;> rw [h] <;> rfl
  obtain ⟨-, htoday, hp⟩ := (compileOperands_eq_ok_iff hcompares htype).mp hp
  rw [compileOperator_any h] at hp
  exact ⟨(Except.ok.inj hp).symm, htoday⟩

theorem compile_equalTo (houter : condition.outer = false) (hother : condition.other? = none)
    (htarget : scope.aliased aliases condition.alias? = .ok target)
    (haccessor : target.accessor context.catalog condition.column = .ok accessor)
    (htype : accessor.type ≠ .options) {today : Date} (htoday : context.present.today = .ok today)
    {operand : Value} (hoperand : operand ∈ Value.flattenAll values) :
    (condition.equalTo operand).compile context aliases scope =
      .ok (compileAnyOf accessor [operand] false) := by
  have hflat : Value.flattenAll (condition.equalTo operand).values = [operand] := by
    change operand.flatten ++ [] = [operand]
    rw [Value.flatten_of_mem_flattenAll values hoperand, List.append_nil]
  have houter : (condition.equalTo operand).outer = false := houter
  have hother : (condition.equalTo operand).other? = none := hother
  have htarget : scope.aliased aliases (condition.equalTo operand).alias? = .ok target := htarget
  have haccessor : target.accessor context.catalog (condition.equalTo operand).column =
    .ok accessor := haccessor
  rw [compile_eq houter hother htarget haccessor, compileOperands_of_compares rfl htype, hflat,
    htoday]
  rfl

end Compile

/-- A condition that asks for one of its operands is compiled as one that asks for equality with
them, and accepts the rows that equality with one of them accepts: all such rows and no others,
except where the column holds a reference that the first operand reads otherwise than they do each
by itself. Their order makes no difference either, but for who comes first where a reference is
stored. -/
theorem compile_oneOf_iff {condition : Condition} (hoperator : condition.operator = .oneOf false)
    (houter : condition.outer = false) (hother : condition.other? = none) {context : Context}
    {aliases : AliasMap} {scope target : Scope} {accessor : Accessor} {p : Predicate}
    (htarget : scope.aliased aliases condition.alias? = .ok target)
    (haccessor : target.accessor context.catalog condition.column = .ok accessor)
    (htype : accessor.type ≠ .options) (hp : condition.compile context aliases scope = .ok p) :
    let operands := Value.flattenAll condition.values
    (∀ q, (condition.saying (.compare .equal)).compile context aliases scope = .ok q → q = p) ∧
      (∀ operand ∈ operands,
        ∃ q, (condition.equalTo operand).compile context aliases scope = .ok q) ∧
      (∀ row, (p.Accepts row ↔ ∃ operand ∈ operands,
          ∃ q, (condition.equalTo operand).compile context aliases scope = .ok q ∧ q.Accepts row) ↔
        ∀ reference, accessor.readPresent? row = some (.reference reference) →
          Value.FirstAgrees accessor.type operands reference) ∧
      ∀ others q, (Value.flattenAll others).Perm operands →
        (condition.withValues others).compile context aliases scope = .ok q →
        ∀ row, Value.namesReference (Value.flattenAll others).head? =
              Value.namesReference operands.head? ∨
            (∀ reference, accessor.readPresent? row ≠ some (.reference reference)) →
          (q.Accepts row ↔ p.Accepts row) := by
  intro operands
  obtain ⟨rfl, today, htoday⟩ :=
    eq_compileAnyOf (.inl hoperator) houter hother htarget haccessor htype hp
  have heach {operand : Value} (hoperand : operand ∈ operands) :=
    compile_equalTo houter hother htarget haccessor htype htoday hoperand
  refine ⟨fun q hq => ?equal, fun operand hoperand => ⟨_, heach hoperand⟩, fun row => ?row,
    fun others q hperm hq row hfirst => ?order⟩
  case equal =>
    have hequal : (condition.saying (.compare .equal)).operator = .compare .equal := rfl
    exact (eq_compileAnyOf (.inr hequal) houter hother htarget haccessor htype hq).1
  case row =>
    rw [← accepts_compileAnyOf_iff_each]
    refine iff_congr .rfl (exists_congr fun operand => and_congr_right fun hoperand => ?_)
    rw [heach hoperand]
    simp
  case order =>
    have hothers : (condition.withValues others).operator = .oneOf false := hoperator
    obtain ⟨rfl, -⟩ := eq_compileAnyOf (.inl hothers) houter hother htarget haccessor htype hq
    exact accepts_compileAnyOf_of_perm hperm hfirst

def ownedAccounts : Context where
  store := .empty
  catalog := { Catalog.empty with
    entities := [(EntityMetadata.ofName "account").withCode "owner" .lookup] }
  caller := default
  now := .greatest
  pageSize := 0

def ownerAccessor : Accessor := ⟨"owner", .reference, none⟩

def ownedBy (operands : List Value) : Condition :=
  ⟨"owner", none, .oneOf false, operands, none, false⟩

def accountOwnedByAnn : Record :=
  ⟨"account", .ofNat 1, .ofList [("owner", .reference ⟨"user", .ofNat 2, some "ann"⟩)]⟩

theorem compile_ownedBy (operands : List Value) :
    (ownedBy operands).compile ownedAccounts [] (.root "account") =
      .ok (compileAnyOf ownerAccessor (Value.flattenAll operands) false) := rfl

theorem compile_oneOf_iff_ann : ∃ operand ∈ [.uuid (.ofNat 2), .null], ∃ q,
    ((ownedBy [.uuid (.ofNat 2), .null]).equalTo operand).compile ownedAccounts []
      (.root "account") = .ok q ∧ q.Accepts accountOwnedByAnn := by
  have hscope : (Scope.root "account").aliased [] none = .ok (.root "account") := rfl
  have howner : (Scope.root "account").accessor ownedAccounts.catalog "owner" =
    .ok ownerAccessor := rfl
  obtain ⟨-, -, hrows, -⟩ := compile_oneOf_iff rfl rfl rfl hscope howner (by decide)
    (compile_ownedBy [.uuid (.ofNat 2), .null])
  refine ((hrows accountOwnedByAnn).mpr ?_).mp rfl
  intro reference _
  refine Value.firstAgrees_of_alike fun operand hoperand => ?_
  rcases List.mem_pair.mp hoperand with rfl | rfl <;> rfl

theorem exists_oneOf_ne_equalTo :
    (¬ ∀ (condition : Condition) (context : Context) (aliases : AliasMap) (scope target : Scope)
      (accessor : Accessor) (p : Predicate) (row : Record), condition.operator = .oneOf false →
      condition.outer = false → condition.other? = none →
      scope.aliased aliases condition.alias? = .ok target →
      target.accessor context.catalog condition.column = .ok accessor →
      accessor.type ≠ .options → condition.compile context aliases scope = .ok p →
      (p.Accepts row ↔ ∃ operand ∈ Value.flattenAll condition.values,
        ∃ q, (condition.equalTo operand).compile context aliases scope = .ok q ∧
          q.Accepts row)) ∧
    ¬ ∀ (condition : Condition) (others : List Value) (context : Context) (aliases : AliasMap)
      (scope : Scope) (p q : Predicate) (row : Record), condition.operator = .oneOf false →
      others.Perm condition.values → condition.compile context aliases scope = .ok p →
      (condition.withValues others).compile context aliases scope = .ok q →
      (q.Accepts row ↔ p.Accepts row) := by
  have hrejects : ¬ (compileAnyOf ownerAccessor [.text "bob", .uuid (.ofNat 2)] false).Accepts
      accountOwnedByAnn := by
    have heval : (compileAnyOf ownerAccessor [.text "bob", .uuid (.ofNat 2)] false).eval
        accountOwnedByAnn = .ok false := rfl
    simp [Predicate.Accepts, heval]
  constructor
  · intro h
    have hiff := h (ownedBy [.text "bob", .uuid (.ofNat 2)]) ownedAccounts [] (.root "account")
      (.root "account") ownerAccessor _ accountOwnedByAnn rfl rfl rfl rfl rfl (by decide)
      (compile_ownedBy _)
    exact hrejects (hiff.mpr ⟨.uuid (.ofNat 2), .tail _ (.head _), _, rfl, rfl⟩)
  · intro h
    have hiff := h (ownedBy [.text "bob", .uuid (.ofNat 2)]) [.uuid (.ofNat 2), .text "bob"]
      ownedAccounts [] (.root "account") _ _ accountOwnedByAnn rfl (.swap _ _ _)
      (compile_ownedBy _) (compile_ownedBy _)
    exact hrejects (hiff.mp rfl)

end Condition

end RecordQuery
