import RecordQuery.Proofs.Predicate.EmptyFilters
import RecordQuery.Proofs.Relation.Existential
import RecordQuery.Proofs.Relation.JoinLoops

namespace RecordQuery

namespace Predicate

variable {parts : List Predicate}

theorem evalAll_of_unconditional (h : ∀ part ∈ parts, part.Unconditional) (row : Record) :
    evalAll row parts = .ok true := by
  induction parts with
  | nil => rfl
  | cons part rest ih =>
    have hrest := ih fun later hlater => h later (List.mem_cons_of_mem _ hlater)
    rw [evalAll, h part List.mem_cons_self row, ok_bind, if_pos rfl, hrest]

theorem unconditional_conjunction (h : ∀ part ∈ parts, part.Unconditional) :
    (conjunction parts).Unconditional := by
  intro row
  rw [Accepts, eval_conjunction, evalAll_of_unconditional h]

theorem eval_conjunction_without (h : ∀ part ∈ parts, part.Unconditional)
    (front rest : List Predicate) (row : Record) :
    (conjunction (front ++ parts ++ rest)).eval row = (conjunction (front ++ rest)).eval row := by
  have hparts : evalAll row (parts ++ rest) = evalAll row rest := by
    rw [evalAll_append, evalAll_of_unconditional h, ok_bind, if_pos rfl]
  rw [eval_conjunction, eval_conjunction, List.append_assoc, evalAll_append, hparts,
    ← evalAll_append]

end Predicate

namespace Relation

theorem filter_congr {p q : Predicate} (h : ∀ row, q.eval row = p.eval row) (rows : Relation) :
    rows.filter q = rows.filter p := by
  have hfaults : q.faults = p.faults := by
    funext row
    rw [Bool.eq_iff_iff, ← Predicate.eval_eq_error_iff, ← Predicate.eval_eq_error_iff, h]
  unfold filter
  rw [hfaults]
  split
  · rfl
  · -- The answers do not tell what is admitted where a predicate faults, but here none does.
    rename_i hnone
    rw [Bool.not_eq_true, List.any_eq_false] at hnone
    congr 2
    apply List.filter_congr
    intro row hrow
    have hcalm : p.faults row = false := by simpa using hnone row hrow
    have heval := Predicate.eval_eq_ok_iff.mpr ⟨hcalm, rfl⟩
    rw [← h] at heval
    exact (Predicate.eval_eq_ok_iff.mp heval).2

theorem filter_unconditional {p : Predicate} (h : p.Unconditional) (rows : Relation) :
    rows.filter p = .ok rows := by
  have hall : rows.filter (.constant true) = .ok rows := by
    simp [filter, Predicate.faults, Predicate.admits, withRecords]
  rw [← hall]
  apply filter_congr
  exact h

end Relation

theorem Filter.compile_relaxed (filter : Filter) (context : Context) (aliases : AliasMap)
    (scope : Scope) :
    ∃ predicate, filter.relaxed.compile context aliases scope = .ok predicate ∧
      predicate.Unconditional := by
  have houter := filter.allOuter_relaxed
  obtain ⟨predicate, hcompile, hadmits⟩ :=
    Filter.compile_of_allOuter context aliases scope filter.relaxed houter
  refine ⟨predicate, hcompile, fun record => ?_⟩
  have hfaults := Filter.faults_of_allOuter filter.relaxed houter hcompile record
  exact Predicate.eval_eq_ok_iff.mpr ⟨hfaults, hadmits record⟩

namespace Context

theorem exists_waitingFilter_relaxed (context : Context) (aliases : AliasMap) (filter : Filter)
    (scope : Scope) :
    ∃ own, context.waitingFilter aliases filter.relaxed scope = .ok own ∧
      ∀ part ∈ own, part.Unconditional := by
  obtain ⟨predicate, hcompile, hpredicate⟩ := filter.compile_relaxed context aliases scope
  unfold waitingFilter
  split
  · exact ⟨[], rfl, by simp⟩
  · rw [hcompile]
    exact ⟨[predicate], rfl, by simpa using hpredicate⟩

variable {context : Context} {aliases : AliasMap}

theorem exists_append_of_joinLinks {parent? : Option String} {relation joined : Relation}
    {deferred after : List Predicate} {links : List PlannedLink}
    (h : context.joinLinks aliases parent? relation deferred links = .ok (joined, after)) :
    ∃ inner, after = deferred ++ inner := by
  obtain ⟨faulty, rows, added, inner, hrows⟩ := joinLinks_pointwise links h
  exact ⟨inner, (hrows.eq_of_ok h).2.symm⟩

def outerJoin (context : Context) (aliases : AliasMap) (parent? : Option String)
    (relation : Relation) (aliasName : String) (link : Link) : Except Error Relation := do
  let right ← context.scan link.entity
  let predicate ← link.filter.compile context aliases (.root link.entity)
  let admitted ← right.filter predicate
  return relation.join admitted (Accessor.qualifiedBy parent? link.source) link.target aliasName
    true

variable {link : Link} {own : List Predicate} {aliasName : String}

theorem joinLink_outer (hkind : link.kind = .leftOuter)
    (hown : context.waitingFilter aliases link.filter.relaxed (.link link.entity aliasName) =
      .ok own)
    (parent? : Option String) (relation : Relation) (deferred : List Predicate)
    (children : List PlannedLink) :
    context.joinLink aliases parent? relation deferred ⟨aliasName, link, children⟩ = (do
      let kept ← context.outerJoin aliases parent? relation aliasName link
      context.joinLinks aliases (some aliasName) kept (deferred ++ own) children) := by
  rw [joinLink_leftOuter _ _ _ _ _ _ hkind, hown]
  simp only [outerJoin, bind_assoc, ok_bind, pure_eq_ok]

/-- A relaxed filter compiles, whatever stands in it, and accepts every row. As the filter that an
outer link leaves behind it drops no row, and what remains of any rows is the same without it. -/
theorem joinLink_relaxed (filter : Filter) (context : Context) (aliases : AliasMap) :
    (∀ scope, ∃ predicate, filter.relaxed.compile context aliases scope = .ok predicate ∧
      ∀ record, predicate.eval record = .ok true) ∧
    ∀ aliasName link children, link.kind = .leftOuter → link.filter = filter →
      ∃ own, context.waitingFilter aliases filter.relaxed (.link link.entity aliasName) = .ok own ∧
        (∀ rows : Relation, rows.filter (.conjunction own) = .ok rows) ∧
        (∀ parent? relation deferred,
          context.joinLink aliases parent? relation deferred ⟨aliasName, link, children⟩ = (do
            let kept ← context.outerJoin aliases parent? relation aliasName link
            context.joinLinks aliases (some aliasName) kept (deferred ++ own) children)) ∧
        ∀ parent? relation deferred joined filters,
          context.joinLink aliases parent? relation deferred ⟨aliasName, link, children⟩ =
            .ok (joined, filters) →
          ∃ inner, filters = deferred ++ own ++ inner ∧ ∀ later (rows : Relation),
            rows.filter (.conjunction (filters ++ later)) =
              rows.filter (.conjunction (deferred ++ inner ++ later)) := by
  refine ⟨filter.compile_relaxed context aliases, ?_⟩
  rintro aliasName link children hkind rfl
  obtain ⟨own, hown, hall⟩ := exists_waitingFilter_relaxed context aliases link.filter
    (.link link.entity aliasName)
  have hjoin := fun parent? relation deferred =>
    joinLink_outer hkind hown parent? relation deferred children
  refine ⟨own, hown, ?_, hjoin, ?_⟩
  · exact Relation.filter_unconditional (Predicate.unconditional_conjunction hall)
  · intro parent? relation deferred joined filters h
    rw [hjoin] at h
    obtain ⟨kept, -, h⟩ := bind_eq_ok_iff.mp h
    obtain ⟨inner, rfl⟩ := exists_append_of_joinLinks h
    refine ⟨inner, rfl, fun later => Relation.filter_congr fun row => ?_⟩
    rw [List.append_assoc (deferred ++ own), List.append_assoc deferred inner]
    exact Predicate.eval_conjunction_without hall deferred (inner ++ later) row

def contactsUnderAccounts : Link :=
  { toContacts .leftOuter with
    filter := ⟨.and, [], [⟨.or, [⟨"accountid", none, .null true, [], none, false⟩,
      ⟨"accountid", none, .compare .equal, [.uuid (.ofNat 1)], none, false⟩], []⟩]⟩ }

theorem joinLink_relaxed_contacts :
    let accounts : Relation := .ofRecords [anAccount, anAccount.set "accountid" (.uuid (.ofNat 3))]
    let filters : List Predicate := [.or [.constant true, .constant true]]
    contactsUnderAccounts.kind = .leftOuter ∧ ∃ joined,
      idleContact.joinLink [] none accounts [] ⟨"contact", contactsUnderAccounts, []⟩ =
          .ok (joined, filters) ∧
        joined.size = 2 ∧ joined.filter (.conjunction filters) = .ok joined := by
  intro accounts filters
  obtain ⟨joined, hjoin, hsize⟩ : ∃ joined,
      idleContact.joinLink [] none accounts [] ⟨"contact", contactsUnderAccounts, []⟩ =
        .ok (joined, filters) ∧ joined.size = 2 := ⟨_, rfl, rfl⟩
  obtain ⟨-, houter⟩ := joinLink_relaxed contactsUnderAccounts.filter idleContact []
  obtain ⟨own, hown, hkeeps, -⟩ := houter "contact" contactsUnderAccounts [] rfl rfl
  obtain rfl : filters = own := Except.ok.inj hown
  exact ⟨rfl, joined, hjoin, hsize, hkeeps joined⟩

end Context

end RecordQuery
