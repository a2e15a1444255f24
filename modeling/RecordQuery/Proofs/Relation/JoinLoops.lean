import RecordQuery.Proofs.Predicate.Contrary
import RecordQuery.Proofs.Relation.KeyTables

namespace RecordQuery

namespace Record

def Correlates (left right : Record) (leftColumn rightColumn : String) : Prop :=
  ∃ a b, left.keyAt? leftColumn = some a ∧ right.keyAt? rightColumn = some b ∧
    a.meaning = b.meaning

def Keyless (record : Record) (column : String) : Prop :=
  record.get? column = none ∨ ∃ value, record.get? column = some value ∧
    (value.unwrap = .null ∨ ∃ items, value.unwrap = .list items)

theorem linksTo_iff (left right : Record) (leftColumn rightColumn : String) :
    left.linksTo right leftColumn rightColumn = true ↔
      left.Correlates right leftColumn rightColumn := by
  unfold linksTo Correlates
  cases left.keyAt? leftColumn <;> cases right.keyAt? rightColumn <;> simp [Scalar.sameKey_iff]

instance (left right : Record) (leftColumn rightColumn : String) :
    Decidable (left.Correlates right leftColumn rightColumn) :=
  decidable_of_iff _ (linksTo_iff left right leftColumn rightColumn)

theorem Keyless.keyAt?_eq {record : Record} {column : String} (h : record.Keyless column) :
    record.keyAt? column = none := by
  obtain hnone | ⟨value, hvalue, hnull | ⟨items, hitems⟩⟩ := h
  · rw [keyAt?, hnone, Option.bind_none]
  · rw [keyAt?, hvalue, Option.bind_some, Value.key?, hnull]
  · rw [keyAt?, hvalue, Option.bind_some, Value.key?, hitems]

end Record

def Relation.correlated (right : Relation) (leftColumn rightColumn : String) (row : Record) :
    List Record :=
  right.records.filter fun other => row.Correlates other leftColumn rightColumn

theorem Relation.linked_eq_correlated (right : Relation) (leftColumn rightColumn : String) :
    linked right.records leftColumn rightColumn = right.correlated leftColumn rightColumn := by
  funext row
  apply List.filter_congr
  intro other _
  rw [Bool.eq_iff_iff, Record.linksTo_iff, decide_eq_true_iff]

namespace JoinKind

def Holds (kind : JoinKind) (predicate : Predicate) (rows : List Record) : Prop :=
  match kind with
  | .any => ∃ row ∈ rows, predicate.eval row = .ok true
  | .notAny => ∀ row ∈ rows, predicate.eval row = .ok false
  | .all => ∀ row ∈ rows, predicate.eval row = .ok true
  | .notAll => ∃ row ∈ rows, predicate.eval row = .ok false
  | .inner | .leftOuter => rows ≠ []

instance (kind : JoinKind) (predicate : Predicate) (rows : List Record) :
    Decidable (kind.Holds predicate rows) :=
  match kind with
  | .any => inferInstanceAs (Decidable (∃ row ∈ rows, predicate.eval row = .ok true))
  | .notAny => inferInstanceAs (Decidable (∀ row ∈ rows, predicate.eval row = .ok false))
  | .all => inferInstanceAs (Decidable (∀ row ∈ rows, predicate.eval row = .ok true))
  | .notAll => inferInstanceAs (Decidable (∃ row ∈ rows, predicate.eval row = .ok false))
  | .inner => inferInstanceAs (Decidable (rows ≠ []))
  | .leftOuter => inferInstanceAs (Decidable (rows ≠ []))

def open? : JoinKind → Option Bool
  | .any | .notAny => some false
  | .all | .notAll => some true
  | .inner | .leftOuter => none

/-- The predicate has no answer for a row, and those before it do not decide the quantifier. -/
def Stops (kind : JoinKind) (predicate : Predicate) (rows : List Record) : Prop :=
  ∃ answer, kind.open? = some answer ∧ ∃ before row after, rows = before ++ row :: after ∧
    (∀ earlier ∈ before, predicate.eval earlier = .ok answer) ∧
      predicate.eval row = .error .overflow

end JoinKind

namespace Predicate

variable {predicate : Predicate} {sought : Bool} {row : Record}

theorem eval_eq_error_iff : predicate.eval row = .error .overflow ↔
    predicate.faults row = true := by
  unfold eval
  cases predicate.faults row <;> simp

theorem eval_eq_ok_iff : predicate.eval row = .ok sought ↔
    predicate.faults row = false ∧ predicate.admits row = sought := by
  unfold eval
  cases predicate.faults row <;> simp

end Predicate

namespace Relation

variable {predicate : Predicate} {sought : Bool} {rows : List Record}

theorem faultsBefore_iff : faultsBefore predicate sought rows = true ↔
    ∃ before row after, rows = before ++ row :: after ∧
      (∀ earlier ∈ before, predicate.eval earlier = .ok !sought) ∧
        predicate.eval row = .error .overflow := by
  induction rows with
  | nil => simp [faultsBefore]
  | cons first rest ih =>
    rw [faultsBefore, Bool.or_eq_true, Bool.and_eq_true, ih]
    constructor
    · rintro (hfault | ⟨hopen, before, row, after, rfl, hbefore, hrow⟩)
      · exact ⟨[], first, rest, rfl, by simp, Predicate.eval_eq_error_iff.mpr hfault⟩
      · -- `admits` says something of a row that faults, too, so this one is asked for it again.
        by_cases hfault : predicate.faults first = true
        · exact ⟨[], first, _, rfl, by simp, Predicate.eval_eq_error_iff.mpr hfault⟩
        · refine ⟨first :: before, row, after, rfl, ?_, hrow⟩
          rw [List.forall_mem_cons]
          refine ⟨Predicate.eval_eq_ok_iff.mpr ⟨Bool.not_eq_true _ ▸ hfault, ?_⟩, hbefore⟩
          exact Bool.eq_not.mpr (bne_iff_ne.mp hopen)
    · rintro ⟨before, row, after, heq, hbefore, hrow⟩
      cases before with
      | nil =>
        obtain ⟨rfl, rfl⟩ := List.cons.inj heq
        exact .inl (Predicate.eval_eq_error_iff.mp hrow)
      | cons earlier before =>
        obtain ⟨rfl, rfl⟩ := List.cons.inj heq
        obtain ⟨hfirst, hbefore⟩ := List.forall_mem_cons.mp hbefore
        refine .inr ⟨?_, before, row, after, rfl, hbefore, hrow⟩
        simp [(Predicate.eval_eq_ok_iff.mp hfirst).2]

theorem answers_iff (h : faultsBefore predicate sought rows = false) :
    ((∃ row ∈ rows, predicate.admits row = sought) ↔
      ∃ row ∈ rows, predicate.eval row = .ok sought) ∧
    ((∀ row ∈ rows, predicate.admits row = !sought) ↔
      ∀ row ∈ rows, predicate.eval row = .ok !sought) := by
  induction rows with
  | nil => simp
  | cons first rest ih =>
    rw [faultsBefore, Bool.or_eq_false_iff] at h
    obtain ⟨hfault, hrest⟩ := h
    have heval (answer : Bool) : predicate.eval first = .ok answer ↔
        predicate.admits first = answer := by
      rw [Predicate.eval_eq_ok_iff, and_iff_right hfault]
    by_cases hfirst : predicate.admits first = sought
    · simp [heval, hfirst]
    · rw [bne_iff_ne.mpr hfirst, Bool.true_and] at hrest
      obtain ⟨hsome, hall⟩ := ih hrest
      simp [heval, hfirst, hsome, hall]

theorem keepFaults_iff (kind : JoinKind) (predicate : Predicate) (rows : List Record) :
    keepFaults kind predicate rows = true ↔ kind.Stops predicate rows := by
  unfold JoinKind.Stops
  cases kind <;> simp [keepFaults, JoinKind.open?, faultsBefore_iff]

theorem keeps_iff_holds {kind : JoinKind} (h : keepFaults kind predicate rows = false) :
    keeps kind predicate rows = true ↔ kind.Holds predicate rows := by
  cases kind with
  | inner => simp [keeps, JoinKind.Holds]
  | leftOuter => simp [keeps, JoinKind.Holds]
  | any =>
    rw [JoinKind.Holds, ← (answers_iff h).1]
    simp [keeps]
  | notAny =>
    rw [JoinKind.Holds, ← Bool.not_true, ← (answers_iff h).2]
    simp [keeps]
  | all =>
    rw [JoinKind.Holds, ← Bool.not_false, ← (answers_iff h).2]
    simp [keeps]
  | notAll =>
    rw [JoinKind.Holds, ← (answers_iff h).1]
    simp [keeps]

variable {left right : Relation} {kind : JoinKind} {leftColumn rightColumn : String}

theorem existsJoin_of_stops
    (h : ∃ row ∈ left.records,
      kind.Stops predicate (right.correlated leftColumn rightColumn row)) :
    left.existsJoin right kind leftColumn rightColumn predicate = .error .overflow := by
  rw [existsJoin_eq, linked_eq_correlated, if_pos]
  obtain ⟨row, hrow, hstops⟩ := h
  exact List.any_eq_true.mpr ⟨row, hrow, (keepFaults_iff _ _ _).mpr hstops⟩

theorem existsJoin_of_not_stops
    (h : ¬ ∃ row ∈ left.records,
      kind.Stops predicate (right.correlated leftColumn rightColumn row)) :
    left.existsJoin right kind leftColumn rightColumn predicate =
      .ok (left.withRecords (left.records.filter fun row =>
        kind.Holds predicate (right.correlated leftColumn rightColumn row))) := by
  have hcalm : ∀ row ∈ left.records,
      keepFaults kind predicate (right.correlated leftColumn rightColumn row) = false := by
    intro row hrow
    rw [Bool.eq_false_iff]
    exact fun hfault => h ⟨row, hrow, (keepFaults_iff _ _ _).mp hfault⟩
  rw [existsJoin_eq, linked_eq_correlated, if_neg]
  · congr 2
    apply List.filter_congr
    intro row hrow
    rw [Bool.eq_iff_iff, keeps_iff_holds (hcalm row hrow), decide_eq_true_iff]
  · rw [Bool.not_eq_true, List.any_eq_false]
    exact fun row hrow => Bool.not_eq_true _ ▸ hcalm row hrow

theorem joins_eq_loops (left right : Relation) (leftColumn rightColumn aliasName : String)
    (outer : Bool) (kind : JoinKind) (predicate : Predicate) :
    left.join right leftColumn rightColumn aliasName outer =
        ⟨left.records.flatMap fun row =>
            match right.correlated leftColumn rightColumn row with
            | [] => if outer then [row] else []
            | others => others.map (row.merge aliasName),
          left.aliases ++ [aliasName]⟩ ∧
      ((∃ row ∈ left.records,
            kind.Stops predicate (right.correlated leftColumn rightColumn row)) ∧
          left.existsJoin right kind leftColumn rightColumn predicate = .error .overflow ∨
        (¬ ∃ row ∈ left.records,
            kind.Stops predicate (right.correlated leftColumn rightColumn row)) ∧
          left.existsJoin right kind leftColumn rightColumn predicate =
            .ok ⟨left.records.filter fun row =>
              kind.Holds predicate (right.correlated leftColumn rightColumn row),
              left.aliases⟩) ∧
      ∀ row other : Record, ¬ ((row.Keyless leftColumn ∨ other.Keyless rightColumn) ∧
        row.Correlates other leftColumn rightColumn) := by
  refine ⟨?_, ?_, ?_⟩
  · rw [join_eq]
    congr 2
    funext row
    rewrite [joinRow, linked_eq_correlated]
    rfl
  · by_cases hstops : ∃ row ∈ left.records,
      kind.Stops predicate (right.correlated leftColumn rightColumn row)
    · exact .inl ⟨hstops, existsJoin_of_stops hstops⟩
    · exact .inr ⟨hstops, existsJoin_of_not_stops hstops⟩
  · rintro row other ⟨hrow | hother, a, b, ha, hb, -⟩
    · simp [hrow.keyAt?_eq] at ha
    · simp [hother.keyAt?_eq] at hb

def contactSince (t : Instant) : Record :=
  ⟨"contact", .ofNat 2, .ofList [("accountid", .uuid (.ofNat 1)), ("since", .dateTime t)]⟩

theorem exists_existsJoin_overflow :
    ∃ (left right : Relation) (leftColumn rightColumn : String) (predicate : Predicate),
      (∀ row ∈ left.records,
        ∃ other ∈ right.correlated leftColumn rightColumn row, predicate.eval other = .ok true) ∧
      left.existsJoin right .any leftColumn rightColumn predicate = .error .overflow :=
  ⟨.ofRecords [⟨"account", .ofNat 1, .ofList [("accountid", .uuid (.ofNat 1))]⟩],
    .ofRecords [contactSince .least, contactSince .greatest], "accountid", "accountid",
    Condition.isGreatestDay false, by decide, rfl⟩

end Relation

end RecordQuery
