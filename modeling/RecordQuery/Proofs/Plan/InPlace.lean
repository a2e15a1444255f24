import Mathlib.Logic.Relation
import RecordQuery.Proofs.Outcome
import RecordQuery.Proofs.Query.Naming

/-!
Aliases assigned in place, step by step. A step reserves the first of the given aliases that wait,
or gives an alias to the first link without one. The links change only when no alias waits any
more, and so they are as they were if an alias cannot be reserved.
-/

namespace RecordQuery

def Link.missingAll (links : List Link) : Nat := (withinAll links).countP (·.alias?.isNone)

namespace Aliases

mutual

def fillLink (aliases : Aliases) : Link → Option (Link × Aliases)
  | ⟨source, entity, target, kind, none, columns, filter, orders, links⟩ =>
    let (aliasName, after) := aliases.allocate entity
    some (⟨source, entity, target, kind, some aliasName, columns, filter, orders, links⟩, after)
  | ⟨source, entity, target, kind, some aliasName, columns, filter, orders, links⟩ =>
    (aliases.fillLinks links).map fun (inner, after) =>
      (⟨source, entity, target, kind, some aliasName, columns, filter, orders, inner⟩, after)

def fillLinks (aliases : Aliases) : List Link → Option (List Link × Aliases)
  | [] => none
  | link :: rest =>
    match aliases.fillLink link with
    | some (filled, after) => some (filled :: rest, after)
    | none => (aliases.fillLinks rest).map fun (others, after) => (link :: others, after)

end

mutual

theorem nameLink_of_fillLink {aliases after : Aliases} : (link filled : Link) →
    aliases.fillLink link = some (filled, after) →
    aliases.nameLink link = after.nameLink filled ∧
      link.within.countP (·.alias?.isNone) = filled.within.countP (·.alias?.isNone) + 1
  | ⟨source, entity, target, kind, none, columns, filter, orders, links⟩, _, h => by
    unfold fillLink at h
    obtain ⟨rfl, rfl⟩ := Prod.mk.inj (Option.some.inj h)
    exact ⟨rfl, by simp [Link.within]⟩
  | ⟨source, entity, target, kind, some aliasName, columns, filter, orders, links⟩, _, h => by
    unfold fillLink at h
    obtain ⟨⟨inner, last⟩, hinner, heq⟩ := Option.map_eq_some_iff.mp h
    obtain ⟨rfl, rfl⟩ := Prod.mk.inj heq
    obtain ⟨hname, hcount⟩ := nameLinks_of_fillLinks links inner hinner
    refine ⟨?_, by simpa [Link.within, Link.missingAll] using hcount⟩
    simp only [nameLink, allocateMissing, hname]

theorem nameLinks_of_fillLinks {aliases after : Aliases} : (links filled : List Link) →
    aliases.fillLinks links = some (filled, after) →
    aliases.nameLinks links = after.nameLinks filled ∧
      Link.missingAll links = Link.missingAll filled + 1
  | [], _, h => by
    unfold fillLinks at h
    contradiction
  | link :: rest, filled, h => by
    unfold fillLinks at h
    simp only [Link.missingAll, Link.withinAll, List.countP_append]
    cases hlink : aliases.fillLink link with
    | some answer =>
      obtain ⟨first, last⟩ := answer
      rw [hlink] at h
      obtain ⟨rfl, rfl⟩ := Prod.mk.inj (Option.some.inj h)
      obtain ⟨hname, hcount⟩ := nameLink_of_fillLink link first hlink
      refine ⟨by simp only [nameLinks, hname], ?_⟩
      rw [Link.withinAll, List.countP_append, hcount]
      omega
    | none =>
      rw [hlink] at h
      obtain ⟨⟨others, last⟩, hrest, heq⟩ := Option.map_eq_some_iff.mp h
      obtain ⟨rfl, rfl⟩ := Prod.mk.inj heq
      obtain ⟨hname, hcount⟩ := nameLinks_of_fillLinks rest others hrest
      have hnamed := named_of_fillLink link hlink
      refine ⟨?_, ?_⟩
      · simp only [nameLinks, nameLink_of_named link _ hnamed, hname]
      · simp only [Link.missingAll] at hcount
        rw [Link.withinAll, List.countP_append, hcount]
        omega

theorem named_of_fillLink {aliases : Aliases} : (link : Link) → aliases.fillLink link = none →
    ∀ inner ∈ link.within, inner.alias?.isSome = true
  | ⟨source, entity, target, kind, none, columns, filter, orders, links⟩, h => by
    unfold fillLink at h
    contradiction
  | ⟨source, entity, target, kind, some aliasName, columns, filter, orders, links⟩, h => by
    unfold fillLink at h
    have hinner := named_of_fillLinks links (Option.map_eq_none_iff.mp h)
    simpa [Link.within] using hinner

theorem named_of_fillLinks {aliases : Aliases} : (links : List Link) →
    aliases.fillLinks links = none → ∀ link ∈ Link.withinAll links, link.alias?.isSome = true
  | [], _ => by simp [Link.withinAll]
  | link :: rest, h => by
    unfold fillLinks at h
    cases hlink : aliases.fillLink link with
    | some answer =>
      rw [hlink] at h
      contradiction
    | none =>
      rw [hlink] at h
      have hfirst := named_of_fillLink link hlink
      have hrest := named_of_fillLinks rest (Option.map_eq_none_iff.mp h)
      intro inner hinner
      rw [Link.withinAll, List.mem_append] at hinner
      exact hinner.elim (hfirst inner) (hrest inner)

end

/-- An assignment in place: the given aliases that wait to be reserved, and the links as they
stand. -/
structure Progress where
  waiting : List String
  aliases : Aliases
  links : List Link

namespace Progress

def start (aliases : Aliases) (links : List Link) : Progress :=
  ⟨Link.explicitAliasesAll links, aliases, links⟩

def step (now : Progress) : Except Error (Option Progress) :=
  match now.waiting with
  | aliasName :: rest =>
    (now.aliases.reserve aliasName).map fun reserved => some ⟨rest, reserved, now.links⟩
  | [] => .ok ((now.aliases.fillLinks now.links).map fun (links, after) => ⟨[], after, links⟩)

def Reaches : Progress → Progress → Prop :=
  Relation.ReflTransGen fun now next => now.step = .ok (some next)

def outcome (now : Progress) : Aliases × Except Error (List Link) :=
  match now.aliases.reserveAll now.waiting with
  | (reserved, .ok ()) =>
    let (named, after) := reserved.nameLinks now.links
    (after, .ok named)
  | (reserved, .error fault) => (reserved, .error fault)

theorem outcome_start (aliases : Aliases) (links : List Link) :
    (start aliases links).outcome = aliases.assign links := rfl

variable {now next : Progress}

theorem step_cases (h : now.step = .ok (some next)) :
    (∃ aliasName rest reserved, now.waiting = aliasName :: rest ∧
      now.aliases.reserve aliasName = .ok reserved ∧ next = ⟨rest, reserved, now.links⟩) ∨
    (now.waiting = [] ∧ ∃ links after,
      now.aliases.fillLinks now.links = some (links, after) ∧ next = ⟨[], after, links⟩) := by
  obtain ⟨waiting, aliases, links⟩ := now
  cases waiting with
  | cons aliasName rest =>
    obtain ⟨reserved, hreserve, hnext⟩ := map_eq_ok_iff.mp h
    exact Or.inl ⟨aliasName, rest, reserved, rfl, hreserve, (Option.some.inj hnext).symm⟩
  | nil =>
    obtain ⟨⟨filled, after⟩, hfill, hnext⟩ := Option.map_eq_some_iff.mp (Except.ok.inj h)
    exact Or.inr ⟨rfl, filled, after, hfill, hnext.symm⟩

theorem outcome_of_step (h : now.step = .ok (some next)) : next.outcome = now.outcome := by
  obtain ⟨aliasName, rest, reserved, hwaiting, hreserve, rfl⟩ |
    ⟨hwaiting, links, after, hfill, rfl⟩ := step_cases h
  · simp only [outcome, hwaiting, reserveAll, hreserve]
  · obtain ⟨hname, -⟩ := nameLinks_of_fillLinks now.links links hfill
    simp only [outcome, hwaiting, reserveAll, hname]

theorem outcome_of_end (h : now.step = .ok none) : now.outcome = (now.aliases, .ok now.links) := by
  obtain ⟨waiting, aliases, links⟩ := now
  cases waiting with
  | cons aliasName rest =>
    obtain ⟨_, _, hnext⟩ := map_eq_ok_iff.mp h
    contradiction
  | nil =>
    have hnamed := named_of_fillLinks links (Option.map_eq_none_iff.mp (Except.ok.inj h))
    simp only [outcome, reserveAll, nameLinks_of_named links _ hnamed]

theorem outcome_of_fault {fault : Error} (h : now.step = .error fault) :
    now.outcome = (now.aliases, .error fault) := by
  obtain ⟨waiting, aliases, links⟩ := now
  cases waiting with
  | cons aliasName rest =>
    have hreserve := map_eq_error_iff.mp h
    simp only [outcome, reserveAll, hreserve]
  | nil => contradiction

theorem links_of_step (h : now.step = .ok (some next)) {fault : Error}
    (hfault : now.outcome.2 = .error fault) : next.links = now.links := by
  obtain ⟨aliasName, rest, reserved, -, -, rfl⟩ | ⟨hwaiting, -, -, -, -⟩ := step_cases h
  · rfl
  · simp [outcome, hwaiting, reserveAll] at hfault

theorem links_of_reaches (h : now.Reaches next) {fault : Error}
    (hfault : now.outcome.2 = .error fault) : next.links = now.links := by
  -- that nothing is left to fail is told by the outcome, which has to be carried along
  have hrun : next.outcome = now.outcome ∧ next.links = now.links := by
    induction h with
    | refl => exact ⟨rfl, rfl⟩
    | tail _ hstep ih =>
      obtain ⟨houtcome, hlinks⟩ := ih
      rw [← houtcome] at hfault
      exact ⟨(outcome_of_step hstep).trans houtcome,
        (links_of_step hstep hfault).trans hlinks⟩
  exact hrun.2

theorem outcome_of_reaches (h : now.Reaches next) : next.outcome = now.outcome := by
  induction h with
  | refl => rfl
  | tail _ hstep ih => exact (outcome_of_step hstep).trans ih

def remaining (now : Progress) : Nat := now.waiting.length + Link.missingAll now.links

theorem remaining_of_step (h : now.step = .ok (some next)) :
    now.remaining = next.remaining + 1 := by
  obtain ⟨aliasName, rest, reserved, hwaiting, -, rfl⟩ |
    ⟨hwaiting, links, after, hfill, rfl⟩ := step_cases h
  · simp only [remaining, hwaiting, List.length_cons]
    omega
  · obtain ⟨-, hcount⟩ := nameLinks_of_fillLinks now.links links hfill
    simp only [remaining, hwaiting, hcount]
    omega

theorem exists_last (now : Progress) : ∃ last, now.Reaches last ∧
    (last.step = .ok none ∨ ∃ fault, last.step = .error fault) := by
  induction hleft : now.remaining using Nat.strongRecOn generalizing now with
  | ind left ih =>
    cases hstep : now.step with
    | error fault => exact ⟨now, .refl, Or.inr ⟨fault, hstep⟩⟩
    | ok next? =>
      cases next? with
      | none => exact ⟨now, .refl, Or.inl hstep⟩
      | some next =>
        have hless := remaining_of_step hstep
        obtain ⟨last, hreaches, hlast⟩ := ih next.remaining (by omega) next rfl
        exact ⟨last, .head hstep hreaches, hlast⟩

end Progress

theorem exists_reaches (aliases : Aliases) (links : List Link) :
    ∃ last, (Progress.start aliases links).Reaches last ∧
      (last.step = .ok none ∧ aliases.assign links = (last.aliases, .ok last.links) ∨
        ∃ fault, last.step = .error fault ∧ aliases.assign links = (last.aliases, .error fault)) := by
  obtain ⟨last, hreaches, hlast⟩ := (Progress.start aliases links).exists_last
  have houtcome := Progress.outcome_of_reaches hreaches
  rw [Progress.outcome_start] at houtcome
  refine ⟨last, hreaches, ?_⟩
  rcases hlast with hend | ⟨fault, hfault⟩
  · exact Or.inl ⟨hend, houtcome ▸ Progress.outcome_of_end hend⟩
  · exact Or.inr ⟨fault, hfault, houtcome ▸ Progress.outcome_of_fault hfault⟩

end Aliases

end RecordQuery
