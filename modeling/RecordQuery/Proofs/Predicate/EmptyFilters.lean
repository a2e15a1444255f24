import RecordQuery.Proofs.Predicate.Alike
import RecordQuery.Proofs.Predicate.Contrary

namespace RecordQuery

namespace Predicate

def evalAll (row : Record) : List Predicate → Except Error Bool
  | [] => .ok true
  | part :: rest => do if ← part.eval row then evalAll row rest else return false

def evalAny (row : Record) : List Predicate → Except Error Bool
  | [] => .ok false
  | part :: rest => do if ← part.eval row then return true else evalAny row rest

variable {front rest parts others : List Predicate} {part : Predicate} {row : Record}

theorem eval_conjunction (parts : List Predicate) (row : Record) :
    (conjunction parts).eval row = evalAll row parts := by
  rw [eval, faults_conjunction, admits_conjunction]
  induction parts with
  | nil => rfl
  | cons first rest ih =>
    rw [evalAll, ← ih, eval, faultsInAll, List.all_cons]
    cases first.faults row <;> cases first.admits row <;> simp

theorem eval_disjunction (h : parts ≠ []) (row : Record) :
    (disjunction parts).eval row = evalAny row parts := by
  have hadmits : (disjunction parts).admits row = parts.any (·.admits row) := by
    unfold disjunction
    split
    · contradiction
    · simp
    · simp [admits]
  rw [eval, faults_disjunction, hadmits]
  clear hadmits h
  induction parts with
  | nil => rfl
  | cons first rest ih =>
    rw [evalAny, ← ih, eval, faultsInAny, List.any_cons]
    cases first.faults row <;> cases first.admits row <;> simp

theorem evalAll_append : evalAll row (front ++ rest) =
    (do if ← evalAll row front then evalAll row rest else return false) := by
  induction front with
  | nil => rfl
  | cons first others ih =>
    rw [List.cons_append, evalAll, evalAll, ih]
    cases first.eval row with
    | error fault => rfl
    | ok holds => cases holds <;> rfl

theorem evalAny_append : evalAny row (front ++ rest) =
    (do if ← evalAny row front then return true else evalAny row rest) := by
  induction front with
  | nil => rfl
  | cons first others ih =>
    rw [List.cons_append, evalAny, evalAny, ih]
    cases first.eval row with
    | error fault => rfl
    | ok holds => cases holds <;> rfl

def AgreeOn (rows : Record → Prop) (p q : Predicate) : Prop :=
  ∀ row, rows row → q.eval row = p.eval row

variable {rows : Record → Prop}

theorem evalAll_congr (h : List.Forall₂ (AgreeOn rows) parts others) (hrow : rows row) :
    evalAll row others = evalAll row parts := by
  induction h with
  | nil => rfl
  | cons hpart _ ih => rw [evalAll, evalAll, hpart row hrow, ih]

theorem evalAny_congr (h : List.Forall₂ (AgreeOn rows) parts others) (hrow : rows row) :
    evalAny row others = evalAny row parts := by
  induction h with
  | nil => rfl
  | cons hpart _ ih => rw [evalAny, evalAny, hpart row hrow, ih]

def Unconditional (part : Predicate) : Prop := ∀ row, part.Accepts row

theorem conjunction_insert (h : part.Unconditional) :
    AgreeOn rows (conjunction (front ++ rest)) (conjunction (front ++ part :: rest)) := by
  intro row _
  rw [eval_conjunction, eval_conjunction, evalAll_append, evalAll_append, evalAll, h row]
  rfl

theorem eval_disjunction_insert (h : part.Unconditional) :
    (disjunction (front ++ part :: rest)).eval row =
      (disjunction front).eval row >>= fun _ => .ok true := by
  rw [eval_disjunction (by simp), evalAny_append, evalAny, h row]
  cases front with
  | nil => rfl
  | cons first others =>
    rw [eval_disjunction (by simp)]
    cases evalAny row (first :: others) with
    | error fault => rfl
    | ok holds => cases holds <;> rfl

theorem disjunction_insert (h : part.Unconditional) :
    AgreeOn (fun row => (disjunction (front ++ rest)).Accepts row ∨
        (disjunction front).faults row = true)
      (disjunction (front ++ rest)) (disjunction (front ++ part :: rest)) := by
  intro row hrow
  rw [eval_disjunction_insert h]
  cases front with
  | nil =>
    rcases hrow with haccepts | hfaults
    · exact haccepts.symm
    · contradiction
  | cons first others =>
    have heval : (disjunction (first :: others ++ rest)).eval row = (do
        if ← (disjunction (first :: others)).eval row then return true else evalAny row rest) := by
      rw [eval_disjunction (by simp), eval_disjunction (by simp), evalAny_append]
    rcases hrow with haccepts | hfaults
    · rw [Accepts] at haccepts
      rw [haccepts]
      rw [heval] at haccepts
      cases hfront : (disjunction (first :: others)).eval row with
      | error fault =>
        rw [hfront] at haccepts
        contradiction
      | ok holds => rfl
    · have hfront : (disjunction (first :: others)).eval row = .error .overflow := by
        rw [eval, hfaults]
        rfl
      rw [heval, hfront]
      rfl

theorem disjunction_insert_unconditional (h : part.Unconditional) :
    AgreeOn (fun row => (disjunction front).faults row = false)
      (disjunction (front ++ part :: rest)) (.constant true) := by
  intro row hrow
  have hfront : (disjunction front).eval row = .ok ((disjunction front).admits row) := by
    rw [eval, hrow]
    rfl
  rw [eval_disjunction_insert h, hfront]
  rfl

end Predicate

namespace Filter

theorem combine_agreeOn {rows : Record → Prop} {parts others : List Predicate}
    (connective : Connective) (h : List.Forall₂ (Predicate.AgreeOn rows) parts others) :
    Predicate.AgreeOn rows (combine connective parts) (combine connective others) := by
  intro row hrow
  cases connective with
  | and =>
    rw [combine, combine, Predicate.eval_conjunction, Predicate.eval_conjunction,
      Predicate.evalAll_congr h hrow]
  | or =>
    cases h with
    | nil => rfl
    | cons hpart hrest =>
      rw [combine, combine, Predicate.eval_disjunction (by simp),
        Predicate.eval_disjunction (by simp), Predicate.evalAny_congr (.cons hpart hrest) hrow]

/-- A filter with a hole in the place of one of its nodes. -/
inductive Around where
  | hole
  | nested (connective : Connective) (conditions : List Condition) (before : List Filter)
    (inner : Around) (after : List Filter)

def Around.plug : Around → Filter → Filter
  | .hole, filter => filter
  | .nested connective conditions before inner after, filter =>
    ⟨connective, conditions, before ++ inner.plug filter :: after⟩

variable {context : Context} {aliases : AliasMap} {scope : Scope}

theorem compileAll_eq_mapM (filters : List Filter) : compileAll context aliases scope filters =
    filters.mapM fun filter => filter.compile context aliases scope := by
  induction filters with
  | nil => rfl
  | cons filter rest ih =>
    rw [compileAll, List.mapM_cons, ih]

theorem compile_eq (connective : Connective) (conditions : List Condition)
    (filters : List Filter) :
    compile context aliases scope ⟨connective, conditions, filters⟩ = (do
      let own ← conditions.mapM fun condition => condition.compile context aliases scope
      let inner ← filters.mapM fun filter => filter.compile context aliases scope
      return combine connective (own ++ inner)) := by
  rw [compile, compileAll_eq_mapM]

theorem Around.compile_plug {strict : Prop} {rows : Record → Prop} {a b : Filter}
    (h : Carries strict (Predicate.AgreeOn rows) (a.compile context aliases scope)
      (b.compile context aliases scope)) (around : Around) :
    Carries strict (Predicate.AgreeOn rows)
      ((around.plug a).compile context aliases scope)
      ((around.plug b).compile context aliases scope) := by
  induction around with
  | hole => exact h
  | nested connective conditions before inner after ih =>
    have hsame (p : Predicate) : Predicate.AgreeOn rows p p := fun _ _ => rfl
    have hothers (filters : List Filter) : List.Forall₂ (fun a b : Filter => Carries strict
        (Predicate.AgreeOn rows) (a.compile context aliases scope)
          (b.compile context aliases scope)) filters filters :=
      List.forall₂_same.mpr fun filter _ => (Carries.of_eq rfl).imp fun p _ heq => heq ▸ hsame p
    have hfilters := List.rel_append (hothers before) (.cons ih (hothers after))
    rw [plug, plug, compile_eq, compile_eq]
    refine (Carries.of_eq rfl).bind fun own _ heq => ?_
    subst heq
    refine (Carries.mapM hfilters).bind fun parts others hparts => Carries.of_ok ?_
    apply combine_agreeOn
    exact List.rel_append (List.forall₂_same.mpr fun part _ => hsame part) hparts

theorem compile_insert {added : Filter} (hadded : added.isEmpty = true) (context : Context)
    (aliases : AliasMap) (scope : Scope) (connective : Connective) (conditions : List Condition)
    (before after : List Filter) :
    Carries True (fun p q => ∃ front rest part, part.Unconditional ∧
        compile context aliases scope ⟨connective, conditions, before⟩ =
          .ok (combine connective front) ∧
        p = combine connective (front ++ rest) ∧ q = combine connective (front ++ part :: rest))
      (compile context aliases scope ⟨connective, conditions, before ++ after⟩)
      (compile context aliases scope ⟨connective, conditions, before ++ added :: after⟩) := by
  obtain ⟨part, hpart, hadmits⟩ := compile_of_allOuter context aliases scope added
    (allOuter_of_isEmpty added hadded)
  have hfaults := faults_of_allOuter added (allOuter_of_isEmpty added hadded) hpart
  rw [compile_eq, compile_eq, compile_eq, List.mapM_append, List.mapM_append, List.mapM_cons, hpart]
  cases conditions.mapM fun condition => condition.compile context aliases scope with
  | error fault => exact Carries.of_error fault
  | ok own =>
    cases before.mapM fun filter => filter.compile context aliases scope with
    | error fault => exact Carries.of_error fault
    | ok front =>
      cases after.mapM fun filter => filter.compile context aliases scope with
      | error fault => exact Carries.of_error fault
      | ok rest =>
        refine Carries.of_ok ⟨own ++ front, rest, part, fun row => ?_, rfl, ?_, ?_⟩
        · exact Predicate.accepts_iff.mpr ⟨hfaults row, hadmits row⟩
        · rw [List.append_assoc]
        · rw [List.append_assoc]

theorem exists_of_compile_plug {node : Filter} {p : Predicate} (around : Around)
    (h : (around.plug node).compile context aliases scope = .ok p) :
    ∃ n, node.compile context aliases scope = .ok n := by
  induction around generalizing p with
  | hole => exact ⟨p, h⟩
  | nested connective conditions before inner after ih =>
    rw [Around.plug, compile_eq] at h
    obtain ⟨own, -, h⟩ := bind_eq_ok_iff.mp h
    obtain ⟨parts, hparts, -⟩ := bind_eq_ok_iff.mp h
    have hhole : inner.plug node ∈ before ++ inner.plug node :: after :=
      List.mem_append_right _ List.mem_cons_self
    obtain ⟨part, -, hpart⟩ := exists_of_mapM_eq_ok hparts hhole
    exact ih hpart

/-- A filter with an empty filter put in at one of its nodes is compiled where it is compiled
without it, and fails alike. Under `and` the empty filter makes no difference to any row. Under `or`
it makes none to rows that the node accepts, nor to rows on which it faults before it comes to the
empty filter; of all others the filter says what it would say with the node empty. -/
theorem compile_plug_insert {added : Filter} (hadded : added.isEmpty = true) (around : Around)
    (connective : Connective) (conditions : List Condition) (before after : List Filter)
    (context : Context) (aliases : AliasMap) (scope : Scope) :
    let node : Filter := ⟨connective, conditions, before ++ after⟩
    let gained : Filter := ⟨connective, conditions, before ++ added :: after⟩
    (∀ fault, (around.plug gained).compile context aliases scope = .error fault ↔
      (around.plug node).compile context aliases scope = .error fault) ∧
    ∀ p, (around.plug node).compile context aliases scope = .ok p → ∃ q n front always,
      (around.plug gained).compile context aliases scope = .ok q ∧
      node.compile context aliases scope = .ok n ∧
      compile context aliases scope ⟨connective, conditions, before⟩ = .ok front ∧
      (around.plug .all).compile context aliases scope = .ok always ∧
      ∀ row, (connective = .and ∨ n.Accepts row ∨ front.faults row = true →
          q.eval row = p.eval row) ∧
        (connective = .or → front.faults row = false → q.eval row = always.eval row) := by
  intro node gained
  have hinsert := compile_insert hadded context aliases scope connective conditions before after
  constructor
  · have hfaults : Carries True (Predicate.AgreeOn fun _ => False)
        (node.compile context aliases scope) (gained.compile context aliases scope) :=
      hinsert.imp fun _ _ _ _ h => h.elim
    exact (Around.compile_plug hfaults around).error_iff
  · intro p hp
    obtain ⟨n, hn⟩ := exists_of_compile_plug around hp
    obtain ⟨g, hg, front, rest, part, hpart, hfront, rfl, rfl⟩ := hinsert.ok n hn
    have hkept : Carries False (Predicate.AgreeOn fun row => connective = .and ∨
          (combine connective (front ++ rest)).Accepts row ∨
            (combine connective front).faults row = true)
        (node.compile context aliases scope) (gained.compile context aliases scope) := by
      rw [hn, hg]
      apply Carries.of_ok
      cases connective with
      | and => exact Predicate.conjunction_insert hpart
      | or => exact fun row h => Predicate.disjunction_insert hpart row (h.resolve_left nofun)
    have hwidened : Carries False (Predicate.AgreeOn fun row => connective = .or ∧
          (combine connective front).faults row = false)
        (gained.compile context aliases scope) (Filter.all.compile context aliases scope) := by
      rw [hg]
      apply Carries.of_ok
      cases connective with
      | and => exact fun row h => nomatch h.1
      | or => exact fun row h => Predicate.disjunction_insert_unconditional hpart row h.2
    obtain ⟨q, hq, hpq⟩ := (Around.compile_plug hkept around).ok p hp
    obtain ⟨always, halways, hqalways⟩ := (Around.compile_plug hwidened around).ok q hq
    exact ⟨q, _, _, always, hq, hn, hfront, halways, fun row =>
      ⟨hpq row, fun hor hfaults => (hqalways row ⟨hor, hfaults⟩).symm⟩⟩

def regions : Context where
  store := .empty
  catalog := { Catalog.empty with
    entities := [(EntityMetadata.ofName "account").withCode "region" .string] }
  caller := default
  now := .greatest
  pageSize := 0

def inNorth : Condition := ⟨"region", none, .compare .equal, [.text "north"], none, false⟩

def accountOfSouth : Record := ⟨"account", .ofNat 1, .ofList [("region", .text "south")]⟩

theorem compile_plug_insert_north : ∃ p q,
    compile regions [] (.root "account") ⟨.or, [], [⟨.and, [inNorth], []⟩]⟩ = .ok p ∧
      compile regions [] (.root "account") ⟨.or, [], [⟨.and, [inNorth], [⟨.or, [], []⟩]⟩]⟩ = .ok q ∧
      ∀ row, q.eval row = p.eval row := by
  have hp : (Around.plug (.nested .or [] [] .hole []) ⟨.and, [inNorth], [] ++ []⟩).compile regions
    [] (.root "account") = .ok _ := rfl
  obtain ⟨q, n, front, always, hq, -, -, -, hrows⟩ := (compile_plug_insert
    (show isEmpty ⟨.or, [], []⟩ = true from rfl) _ _ _ _ _ regions [] (.root "account")).2 _ hp
  exact ⟨_, q, hp, hq, fun row => (hrows row).1 (.inl rfl)⟩

theorem exists_insert_widens : ¬ ∀ (added : Filter) (around : Around) (connective : Connective)
    (conditions : List Condition) (before after : List Filter) (context : Context)
    (aliases : AliasMap) (scope : Scope) (p q : Predicate) (row : Record),
    added.isEmpty = true →
    (around.plug ⟨connective, conditions, before ++ after⟩).compile context aliases scope = .ok p →
    (around.plug ⟨connective, conditions, before ++ added :: after⟩).compile context aliases scope =
      .ok q →
    (q.Accepts row ↔ p.Accepts row) := by
  intro h
  have hp : (Around.hole.plug ⟨.or, [inNorth], []⟩).compile regions [] (.root "account") =
    .ok _ := rfl
  have hiff := h .all .hole .or [inNorth] [] [] regions [] (.root "account") _ _ accountOfSouth rfl
    hp rfl
  have hrejected : (Except.ok false : Except Error Bool) = .ok true := hiff.mp rfl
  contradiction

end Filter

end RecordQuery
