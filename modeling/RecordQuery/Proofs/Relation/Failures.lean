import RecordQuery.Proofs.Predicate.OtherStore
import RecordQuery.Proofs.Relation.Linking
import RecordQuery.Proofs.Relation.Overflows

/-!
Whether a query fails does not depend on the records. What a run does without any record foretells
what it does over some: it fails in the same way or does not fail at all, unless the arithmetic of
the records themselves leaves its range.
-/

namespace RecordQuery

universe u

variable {α β γ δ : Type u}

inductive Foretells (R : α → β → Prop) : Except Error α → Except Error β → Prop
  | ok {a : α} {b : β} (h : R a b) : Foretells R (.ok a) (.ok b)
  | error (fault : Error) : Foretells R (.error fault) (.error fault)
  | overflow (first : Except Error α) : Foretells R first (.error .overflow)

namespace Foretells

variable {R : α → β → Prop} {S : γ → δ → Prop}

theorem of_carries {first : Except Error α} {second : Except Error β}
    (h : Carries True R first second) : Foretells R first second := by
  cases hfirst : first with
  | ok a =>
    obtain ⟨b, rfl, hab⟩ := h.ok a hfirst
    exact .ok hab
  | error fault =>
    obtain rfl := h.error trivial fault hfirst
    exact .error fault

theorem bind {first : Except Error α} {second : Except Error β} {next : α → Except Error γ}
    {after : β → Except Error δ} (h : Foretells R first second)
    (hnext : ∀ a b, R a b → Foretells S (next a) (after b)) :
    Foretells S (first >>= next) (second >>= after) := by
  cases h with
  | ok hab => exact hnext _ _ hab
  | error fault => exact .error fault
  | overflow => exact .overflow _

theorem map {first : Except Error α} {second : Except Error β} {f : α → γ} {g : β → δ}
    (h : Foretells R first second) (hfg : ∀ a b, R a b → S (f a) (g b)) :
    Foretells S (first.map f) (second.map g) := by
  cases h with
  | ok hab => exact .ok (hfg _ _ hab)
  | error fault => exact .error fault
  | overflow => exact .overflow _

theorem of_ok_of_overflow {first : Except Error α} {second : Except Error β} {a : α}
    (hfirst : first = .ok a) (hR : ∀ b, R a b)
    (hsecond : ∀ fault, second = .error fault → fault = .overflow) : Foretells R first second := by
  rw [hfirst]
  cases second with
  | ok b => exact .ok (hR b)
  | error fault =>
    obtain rfl := hsecond fault rfl
    exact .overflow _

end Foretells

namespace Relation

def Rowless (first _second : Relation) : Prop := first.records = []

variable {relation other : Relation}

theorem filter_foretells (h : Rowless relation other) (p q : Predicate) :
    Foretells Rowless (relation.filter p) (other.filter q) := by
  apply Foretells.of_ok_of_overflow (a := relation)
  · rw [filter, h, List.any_nil, if_neg Bool.false_ne_true, withRecords, List.filter_nil, ← h]
  · exact fun _ => h
  · intro fault hfault
    unfold filter at hfault
    split at hfault
    · exact (Except.error.inj hfault).symm
    · contradiction

theorem existsJoin_foretells (h : Rowless relation other) (right right' : Relation)
    (kind : JoinKind) (leftColumn rightColumn : String) (p q : Predicate) :
    Foretells Rowless (relation.existsJoin right kind leftColumn rightColumn p)
      (other.existsJoin right' kind leftColumn rightColumn q) := by
  apply Foretells.of_ok_of_overflow (a := relation)
  · rw [existsJoin_eq, h, List.any_nil, if_neg Bool.false_ne_true, withRecords,
      List.filter_nil, ← h]
  · exact fun _ => h
  · intro fault hfault
    rw [existsJoin_eq] at hfault
    split at hfault
    · exact (Except.error.inj hfault).symm
    · contradiction

theorem Rowless.join (h : Rowless relation other) (right right' : Relation)
    (leftColumn rightColumn aliasName : String) (outer : Bool) :
    Rowless (relation.join right leftColumn rightColumn aliasName outer)
      (other.join right' leftColumn rightColumn aliasName outer) := by
  rw [Rowless, join_eq, h, List.flatMap_nil]

theorem aggregate_foretells (h : Rowless relation other) (entity : String) (offset : UtcOffset)
    (columns : List AggregateColumn) :
    Foretells (fun _ _ => True) (relation.aggregate entity offset columns)
      (other.aggregate entity offset columns) := by
  obtain ⟨result, hresult⟩ := exists_aggregate_of_nil h entity
  exact Foretells.of_ok_of_overflow hresult (fun _ => trivial) fun fault => overflow_of_aggregate

end Relation

namespace Context

variable {context : Context} {store : Store}

theorem rowless_of_empty (h : context.store.rows = []) (entity primaryId : String)
    (other : Relation) : Relation.Rowless (.scan context.store entity primaryId) other := by
  rw [Relation.Rowless, Relation.scan, Relation.ofRecords, Store.records, h]
  rfl

theorem rowless_scan (h : context.store.rows = []) (entity : String) :
    Foretells Relation.Rowless (context.scan entity) ((context.withStore store).scan entity) := by
  have hid : (context.withStore store).catalog.primaryId entity =
      context.catalog.primaryId entity := rfl
  unfold scan
  rw [hid]
  cases context.catalog.primaryId entity with
  | error fault => exact .error fault
  | ok primaryId => exact .ok (rowless_of_empty h entity primaryId _)

section Compile

variable (aliases : AliasMap) (filter : Filter) (scope : Scope)

theorem compile_foretells :
    Foretells (fun _ _ => True) (filter.compile context aliases scope)
      (filter.compile (context.withStore store) aliases scope) := by
  apply Foretells.of_carries
  have htrivial : Predicate.Congruence fun _ _ => True :=
    ⟨fun _ => trivial, fun _ _ _ _ => trivial⟩
  exact filter.compile_withStore htrivial (fun _ _ _ _ _ => trivial) aliases scope

theorem waitingFilter_foretells :
    Foretells (fun _ _ => True) (context.waitingFilter aliases filter scope)
      ((context.withStore store).waitingFilter aliases filter scope) := by
  unfold waitingFilter
  cases filter.isEmpty with
  | true => exact .ok trivial
  | false =>
    exact (compile_foretells aliases filter scope).map fun _ _ _ => trivial

end Compile

def Unjoined (first second : Relation × List Predicate) : Prop :=
  Relation.Rowless first.1 second.1

mutual

theorem joinLink_foretells (hempty : context.store.rows = []) {aliases : AliasMap}
    {parent? : Option String} {relation other : Relation} {deferred waiting : List Predicate}
    (h : Relation.Rowless relation other) : (planned : PlannedLink) →
    Foretells Unjoined (context.joinLink aliases parent? relation deferred planned)
      ((context.withStore store).joinLink aliases parent? other waiting planned)
  | ⟨aliasName, link, children⟩ => by
    have hscan : Foretells Relation.Rowless (context.scan link.entity)
        ((context.withStore store).scan link.entity) := rowless_scan hempty link.entity
    cases hkind : link.kind with
    | inner =>
      rw [joinLink_inner _ _ _ _ _ _ hkind, joinLink_inner _ _ _ _ _ _ hkind]
      apply hscan.bind
      intro right right' _
      apply (waitingFilter_foretells aliases link.filter _).bind
      intro _ _ _
      exact joinLinks_foretells hempty (h.join right right' _ _ _ _) children
    | leftOuter =>
      rw [joinLink_leftOuter _ _ _ _ _ _ hkind, joinLink_leftOuter _ _ _ _ _ _ hkind]
      apply hscan.bind
      intro right right' hright
      apply (compile_foretells aliases link.filter _).bind
      intro p q _
      apply (Relation.filter_foretells hright p q).bind
      intro admitted admitted' _
      apply (waitingFilter_foretells aliases link.filter.relaxed _).bind
      intro _ _ _
      exact joinLinks_foretells hempty (h.join admitted admitted' _ _ _ _) children
    | _ =>
      have hexistential : link.kind.isExistential = true := by rw [hkind]; rfl
      rw [joinLink_existential _ _ _ _ _ _ hexistential,
        joinLink_existential _ _ _ _ _ _ hexistential]
      apply hscan.bind
      intro right right' hright
      apply (compile_foretells aliases link.filter _).bind
      intro p q _
      apply (joinLinks_foretells hempty hright children).bind
      rintro ⟨linked, inner⟩ ⟨linked', inner'⟩ _
      apply (Relation.existsJoin_foretells h linked linked' link.kind _ _ _ _).bind
      intro kept kept' hkept
      exact .ok hkept

theorem joinLinks_foretells (hempty : context.store.rows = []) {aliases : AliasMap}
    {parent? : Option String} {relation other : Relation} {deferred waiting : List Predicate}
    (h : Relation.Rowless relation other) : (links : List PlannedLink) →
    Foretells Unjoined (context.joinLinks aliases parent? relation deferred links)
      ((context.withStore store).joinLinks aliases parent? other waiting links)
  | [] => by
    simp only [joinLinks]
    exact .ok h
  | planned :: rest => by
    simp only [joinLinks]
    apply (joinLink_foretells hempty h planned).bind
    rintro ⟨joined, _⟩ ⟨joined', _⟩ hjoined
    exact joinLinks_foretells hempty hjoined rest

end

theorem matchingRows_foretells (hempty : context.store.rows = []) (plan : Plan)
    (p q : Predicate) :
    Foretells Relation.Rowless (context.matchingRows plan p)
      ((context.withStore store).matchingRows plan q) := by
  unfold matchingRows
  apply (joinLinks_foretells hempty (rowless_of_empty hempty _ _ _) plan.links).bind
  rintro ⟨joined, filters⟩ ⟨joined', filters'⟩ hjoined
  exact Relation.filter_foretells hjoined _ _

theorem shaped_foretells {query : Query} {relation other : Relation}
    (h : Relation.Rowless relation other) (shape : Shape) :
    Foretells (fun _ _ => True) (context.shaped query relation shape)
      ((context.withStore store).shaped query other shape) := by
  cases shape with
  | aggregate columns => exact Relation.aggregate_foretells h _ _ _
  | rows keys projection => exact .ok trivial

theorem run_foretells (hempty : context.store.rows = []) (query : Query) :
    Foretells (fun _ _ => True) (context.run query) ((context.withStore store).run query) := by
  have hplan : Foretells Eq (Plan.ofQuery context.catalog query)
      (Plan.ofQuery (context.withStore store).catalog query) :=
    Foretells.of_carries (Carries.of_eq rfl)
  unfold run
  apply hplan.bind
  rintro plan _ rfl
  apply (compile_foretells plan.aliases query.criteria _).bind
  intro p q _
  have hshape : Foretells Eq (context.shape query plan)
      ((context.withStore store).shape query plan) :=
    Foretells.of_carries (Carries.of_eq rfl)
  apply hshape.bind
  rintro shape _ rfl
  apply (matchingRows_foretells hempty plan p q).bind
  intro relation other hrows
  apply (shaped_foretells hrows shape).bind
  intro _ _ _
  exact .ok trivial

/-- The run overflows, and would not without records. -/
def PanicsOnRecords (context : Context) (query : Query) : Prop :=
  context.run query = .error .overflow ∧ (context.withStore .empty).run query ≠ .error .overflow

theorem run_error_iff_empty {query : Query} (h : ¬ context.PanicsOnRecords query)
    (fault : Error) :
    context.run query = .error fault ↔ (context.withStore .empty).run query = .error fault := by
  have hrun : Foretells (fun _ _ => True) ((context.withStore .empty).run query)
      (context.run query) := run_foretells rfl query
  unfold PanicsOnRecords at h
  generalize context.run query = second at hrun h
  generalize (context.withStore .empty).run query = first at hrun h
  cases hrun with
  | ok => exact iff_of_false (by simp) (by simp)
  | error fault => exact Iff.rfl
  | overflow =>
    have hfirst : first = .error .overflow := by
      by_contra hne
      exact h ⟨rfl, hne⟩
    rw [hfirst]

/-- Over any two stores a query fails with the same fault, or over neither, if the arithmetic of the
records stays in its range. -/
theorem run_error_iff {a b : Store} {query : Query}
    (ha : ¬ (context.withStore a).PanicsOnRecords query)
    (hb : ¬ (context.withStore b).PanicsOnRecords query) (fault : Error) :
    (context.withStore a).run query = .error fault ↔
      (context.withStore b).run query = .error fault :=
  (run_error_iff_empty ha fault).trans (run_error_iff_empty hb fault).symm

def accountsAlone : Context where
  store := .empty
  catalog := { Catalog.empty with entities := [.ofName "account"] }
  caller := default
  now := .greatest
  pageSize := 0

def withAge : Query :=
  { Query.ofEntity "account" with
    links := [⟨"accountid", "account", "accountid", .leftOuter, none, .all,
      ⟨.and, [⟨"age", none, .null false, [], none, false⟩], []⟩, [], []⟩] }

theorem run_error_iff_unknown :
    (accountsAlone.withStore (.ofList [⟨"account", .ofNat 1, .empty⟩])).run withAge =
      .error (.name (.unknownAttribute "account" "age")) := by
  have hfails (store : Store) (hfail : (accountsAlone.withStore store).run withAge =
      .error (.name (.unknownAttribute "account" "age"))) :
      ¬ (accountsAlone.withStore store).PanicsOnRecords withAge := by
    rintro ⟨hoverflow, -⟩
    exact absurd (hfail.symm.trans hoverflow) (by simp)
  exact (run_error_iff (hfails .empty rfl) (hfails _ rfl) _).mp rfl

end Context

end RecordQuery
