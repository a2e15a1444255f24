import RecordQuery.Proofs.Plan.Rearranging
import RecordQuery.Proofs.Predicate.LocalDays
import RecordQuery.Proofs.Relation.Linking

namespace RecordQuery

open Predicate (Steady)

theorem JoinKind.merges_or_isExistential (kind : JoinKind) :
    kind = .inner ∨ kind = .leftOuter ∨ kind.isExistential = true := by
  cases kind <;> simp [isExistential]

namespace Relation

theorem faultsBefore_steady {predicate : Predicate} (h : predicate.Steady) (sought : Bool)
    (rows : List Record) : faultsBefore predicate sought rows = false := by
  induction rows with
  | nil => rfl
  | cons row rest ih => rw [faultsBefore, h row, ih, Bool.and_false, Bool.or_false]

theorem existsJoin_steady {predicate : Predicate} (h : predicate.Steady) (left right : Relation)
    (kind : JoinKind) (leftColumn rightColumn : String) :
    ∃ kept, left.existsJoin right kind leftColumn rightColumn predicate = .ok kept := by
  have hkeep : ∀ rows, keepFaults kind predicate rows = false := by
    intro rows
    cases kind <;> first | rfl | exact faultsBefore_steady h _ rows
  rw [existsJoin_eq, if_neg (by simp [hkeep])]
  exact ⟨_, rfl⟩

end Relation

/-- The filters of the existential links, and of the links inside of these, compare no local day. -/
def Link.Calm (links : List Link) : Prop :=
  ∀ link ∈ withinAll links, link.kind.isExistential = true →
    ∀ inner ∈ link.within, inner.filter.Dayless

theorem Link.Calm.of_subset {links others : List Link} (h : Calm links)
    (hsubset : withinAll others ⊆ withinAll links) : Calm others :=
  fun link hlink => h link (hsubset hlink)

namespace Context

open PlannedLink (asGiven asGivenAll asGiven_eq)

variable {context : Context} {aliases : AliasMap}

theorem waitingFilter_steady {filter : Filter} {scope : Scope} {waiting : List Predicate}
    (h : context.waitingFilter aliases filter scope = .ok waiting)
    (hfilter : ∀ predicate, filter.compile context aliases scope = .ok predicate →
      predicate.Steady) : ∀ predicate ∈ waiting, predicate.Steady := by
  unfold waitingFilter at h
  split at h
  · obtain rfl := Except.ok.inj h
    simp
  · obtain ⟨predicate, hpredicate, rfl⟩ := map_eq_ok_iff.mp h
    simpa using hfilter predicate hpredicate

mutual

theorem joinLink_steady {parent? : Option String} {relation joined : Relation}
    {deferred after : List Predicate} : (link : Link) →
    context.joinLink aliases parent? relation deferred (asGiven link) = .ok (joined, after) →
    (∀ inner ∈ link.within, inner.filter.Dayless) → (∀ predicate ∈ deferred, predicate.Steady) →
    ∀ predicate ∈ after, predicate.Steady
  | ⟨source, entity, target, kind, alias?, columns, filter, orders, links⟩, h, hday, hdeferred => by
    rw [Link.within] at hday
    have hown := hday _ List.mem_cons_self
    have hinner : ∀ inner ∈ Link.withinAll links, inner.filter.Dayless :=
      fun inner hinner => hday inner (List.mem_cons_of_mem _ hinner)
    rw [asGiven] at h
    rcases kind.merges_or_isExistential with rfl | rfl | hexistential
    · rw [joinLink_inner _ _ _ _ _ _ rfl] at h
      obtain ⟨right, -, h⟩ := bind_eq_ok_iff.mp h
      obtain ⟨waiting, hwaiting, h⟩ := bind_eq_ok_iff.mp h
      apply joinLinks_steady links h hinner
      have hsteady := waitingFilter_steady hwaiting fun _ => Filter.compile_steady filter hown
      simpa [or_imp, forall_and] using ⟨hdeferred, hsteady⟩
    · rw [joinLink_leftOuter _ _ _ _ _ _ rfl] at h
      obtain ⟨right, -, h⟩ := bind_eq_ok_iff.mp h
      obtain ⟨predicate, -, h⟩ := bind_eq_ok_iff.mp h
      obtain ⟨admitted, -, h⟩ := bind_eq_ok_iff.mp h
      obtain ⟨waiting, hwaiting, h⟩ := bind_eq_ok_iff.mp h
      apply joinLinks_steady links h hinner
      have hsteady := waitingFilter_steady hwaiting fun _ =>
        Filter.faults_of_allOuter filter.relaxed filter.allOuter_relaxed
      simpa [or_imp, forall_and] using ⟨hdeferred, hsteady⟩
    · rw [joinLink_existential _ _ _ _ _ _ hexistential] at h
      obtain ⟨right, -, h⟩ := bind_eq_ok_iff.mp h
      obtain ⟨predicate, -, h⟩ := bind_eq_ok_iff.mp h
      obtain ⟨⟨linked, inner⟩, -, h⟩ := bind_eq_ok_iff.mp h
      obtain ⟨kept, -, h⟩ := bind_eq_ok_iff.mp h
      obtain ⟨-, rfl⟩ := Prod.mk.inj (Except.ok.inj h)
      exact hdeferred

theorem joinLinks_steady {parent? : Option String} {relation joined : Relation}
    {deferred after : List Predicate} : (links : List Link) →
    context.joinLinks aliases parent? relation deferred (asGivenAll links) = .ok (joined, after) →
    (∀ inner ∈ Link.withinAll links, inner.filter.Dayless) →
    (∀ predicate ∈ deferred, predicate.Steady) → ∀ predicate ∈ after, predicate.Steady
  | [], h, _, hdeferred => by
    rw [asGivenAll, joinLinks] at h
    obtain ⟨-, rfl⟩ := Prod.mk.inj (Except.ok.inj h)
    exact hdeferred
  | link :: rest, h, hday, hdeferred => by
    simp only [Link.withinAll, List.mem_append] at hday
    rw [asGivenAll, joinLinks] at h
    obtain ⟨⟨middle, waiting⟩, hfirst, hrest⟩ := bind_eq_ok_iff.mp h
    exact joinLinks_steady rest hrest (fun inner hinner => hday inner (Or.inr hinner))
      (joinLink_steady link hfirst (fun inner hinner => hday inner (Or.inl hinner)) hdeferred)

end

mutual

theorem joinLink_calm {parent? : Option String} {relation : Relation} {deferred : List Predicate}
    {answer : Relation × List Predicate} : (link : Link) → Link.Calm [link] →
    context.joinLink aliases parent? relation deferred (asGiven link) = .ok answer →
    ∀ below others, ∃ again, context.joinLink aliases parent? below others (asGiven link) = .ok again
  | ⟨source, entity, target, kind, alias?, columns, filter, orders, links⟩, hcalm, h => by
    have hinner : Link.Calm links := by
      apply hcalm.of_subset
      intro inner hinner
      simp [Link.withinAll, Link.within, hinner]
    intro below others
    rw [asGiven] at h ⊢
    rcases kind.merges_or_isExistential with rfl | rfl | hexistential
    · rw [joinLink_inner _ _ _ _ _ _ rfl] at h ⊢
      obtain ⟨right, hright, h⟩ := bind_eq_ok_iff.mp h
      obtain ⟨waiting, hwaiting, h⟩ := bind_eq_ok_iff.mp h
      simp only [hright, hwaiting, ok_bind]
      exact joinLinks_calm links hinner h _ _
    · rw [joinLink_leftOuter _ _ _ _ _ _ rfl] at h ⊢
      obtain ⟨right, hright, h⟩ := bind_eq_ok_iff.mp h
      obtain ⟨predicate, hpredicate, h⟩ := bind_eq_ok_iff.mp h
      obtain ⟨admitted, hadmitted, h⟩ := bind_eq_ok_iff.mp h
      obtain ⟨waiting, hwaiting, h⟩ := bind_eq_ok_iff.mp h
      simp only [hright, hpredicate, hadmitted, hwaiting, ok_bind]
      exact joinLinks_calm links hinner h _ _
    · rw [joinLink_existential _ _ _ _ _ _ hexistential] at h ⊢
      obtain ⟨right, hright, h⟩ := bind_eq_ok_iff.mp h
      obtain ⟨predicate, hpredicate, h⟩ := bind_eq_ok_iff.mp h
      obtain ⟨⟨linked, inner⟩, hlinked, h⟩ := bind_eq_ok_iff.mp h
      have hday := hcalm ⟨source, entity, target, kind, alias?, columns, filter, orders, links⟩
        (by simp [Link.withinAll, Link.within]) hexistential
      rw [Link.within] at hday
      have hsteady : Steady (Predicate.conjunction inner) := by
        apply Steady.conjunction
        apply joinLinks_steady links hlinked fun inner hinner =>
          hday inner (List.mem_cons_of_mem _ hinner)
        simpa using Filter.compile_steady filter (hday _ List.mem_cons_self) hpredicate
      obtain ⟨kept, hkept⟩ := Relation.existsJoin_steady hsteady below linked kind
        (Accessor.qualifiedBy parent? source) target
      simp only [hright, hpredicate, hlinked, ok_bind, hkept]
      exact ⟨_, rfl⟩

theorem joinLinks_calm {parent? : Option String} {relation : Relation} {deferred : List Predicate}
    {answer : Relation × List Predicate} : (links : List Link) → Link.Calm links →
    context.joinLinks aliases parent? relation deferred (asGivenAll links) = .ok answer →
    ∀ below others,
      ∃ again, context.joinLinks aliases parent? below others (asGivenAll links) = .ok again
  | [], _, _ => fun below others => ⟨(below, others), rfl⟩
  | link :: rest, hcalm, h => by
    intro below others
    rw [asGivenAll, joinLinks] at h ⊢
    obtain ⟨⟨middle, waiting⟩, hfirst, hrest⟩ := bind_eq_ok_iff.mp h
    have hlink : Link.Calm [link] := hcalm.of_subset (by simp [Link.withinAll])
    have hothers : Link.Calm rest := hcalm.of_subset (by simp [Link.withinAll])
    obtain ⟨again, hagain⟩ := joinLink_calm link hlink hfirst below others
    rw [hagain, ok_bind]
    exact joinLinks_calm rest hothers hrest _ _

end

end Context

end RecordQuery
