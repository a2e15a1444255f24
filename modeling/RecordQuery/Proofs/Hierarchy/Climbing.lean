import Mathlib.Data.List.Perm.Subperm
import RecordQuery.Proofs.Hierarchy.Steps

/-!
The way up. The loop that follows it ends as no record is met twice, and what it gives are all
records above, each at its distance.
-/

namespace RecordQuery

namespace Hierarchy

open Relation

variable {hierarchy : Hierarchy} {id upper : Uuid} {seen chain : List Uuid}

/-- A run of the loop, to its end, from a record whose way down to the start has been seen. -/
inductive Climbs (hierarchy : Hierarchy) : List Uuid → Uuid → List Uuid → Prop where
  | root {seen : List Uuid} {id : Uuid} (none : hierarchy.parent? id = none) :
      hierarchy.Climbs seen id []
  | met {seen : List Uuid} {id parent : Uuid} (step : hierarchy.Step id parent)
      (met : parent ∈ seen) : hierarchy.Climbs seen id []
  | step {seen chain : List Uuid} {id parent : Uuid} (step : hierarchy.Step id parent)
      (new : parent ∉ seen) (rest : hierarchy.Climbs (parent :: seen) parent chain) :
      hierarchy.Climbs seen id (parent :: chain)

theorem climb_climbs {steps : Nat} {earlier : List Uuid} (hnodup : (id :: earlier).Nodup)
    (hstored : earlier ⊆ hierarchy.stored)
    (hsteps : hierarchy.stored.length ≤ steps + earlier.length) :
    hierarchy.Climbs (id :: earlier) id (hierarchy.climb steps (id :: earlier) id) := by
  induction steps generalizing id earlier with
  | zero =>
    refine .root ?_
    by_contra hparent
    obtain ⟨parent, hstep⟩ := Option.ne_none_iff_exists'.mp hparent
    have hall : id :: earlier ⊆ hierarchy.stored :=
      List.cons_subset.mpr ⟨Step.stored hstep, hstored⟩
    have hlength := (hnodup.subperm hall).length_le
    rw [List.length_cons] at hlength
    omega
  | succ steps ih =>
    unfold climb
    cases hparent : hierarchy.parent? id with
    | none => exact .root hparent
    | some parent =>
      dsimp only
      split
      · rename_i hmet
        exact .met hparent (List.contains_iff_mem.mp hmet)
      · rename_i hnew
        have hnew : parent ∉ id :: earlier := fun hmem => hnew (List.contains_iff_mem.mpr hmem)
        refine .step hparent hnew (ih (List.nodup_cons.mpr ⟨hnew, hnodup⟩) ?_ ?_)
        · exact List.cons_subset.mpr ⟨Step.stored hparent, hstored⟩
        · rw [List.length_cons]
          omega

theorem ancestors_climbs (hierarchy : Hierarchy) (id : Uuid) :
    hierarchy.Climbs [id] id (hierarchy.ancestors id) :=
  climb_climbs (List.nodup_singleton id) (List.nil_subset _) (by simp [length_stored])

namespace Climbs

theorem unique {other : List Uuid} (h : hierarchy.Climbs seen id chain)
    (hother : hierarchy.Climbs seen id other) : chain = other := by
  induction h generalizing other with
  | root hnone =>
    cases hother with
    | root => rfl
    | met hstep => exact absurd (hnone.symm.trans hstep) nofun
    | step hstep => exact absurd (hnone.symm.trans hstep) nofun
  | met hstep hmet =>
    cases hother with
    | root => rfl
    | met => rfl
    | step hagain hnew => exact absurd (hstep.unique hagain ▸ hmet) hnew
  | step hstep hnew _ ih =>
    cases hother with
    | root hnone => exact absurd (hnone.symm.trans hstep) nofun
    | met hagain hmet => exact absurd (hstep.unique hagain ▸ hmet) hnew
    | step hagain _ hrest =>
      obtain rfl := hstep.unique hagain
      rw [ih hrest]

theorem fresh (h : hierarchy.Climbs seen id chain) :
    chain.Nodup ∧ ∀ upper ∈ chain, upper ∉ seen := by
  induction h with
  | root => exact ⟨List.nodup_nil, nofun⟩
  | met => exact ⟨List.nodup_nil, nofun⟩
  | @step seen chain id parent _ hnew _ ih =>
    obtain ⟨hnodup, hfresh⟩ := ih
    refine ⟨List.nodup_cons.mpr ⟨fun hmem => hfresh parent hmem List.mem_cons_self, hnodup⟩, ?_⟩
    intro upper hupper
    rcases List.mem_cons.mp hupper with rfl | hupper
    · exact hnew
    · exact fun hmem => hfresh upper hupper (List.mem_cons_of_mem _ hmem)

theorem away (h : hierarchy.Climbs seen id chain) (hid : id ∈ seen) {place : Nat}
    (hplace : chain[place]? = some upper) : hierarchy.Away upper (place + 1) id := by
  induction h generalizing place with
  | root => simp at hplace
  | met => simp at hplace
  | @step seen chain id parent hstep hnew hrest ih =>
    cases place with
    | zero =>
      obtain rfl : parent = upper := by simpa using hplace
      refine .under ?_ hstep .here
      rintro rfl
      exact hnew hid
    | succ place =>
      have hupper : chain[place]? = some upper := by simpa using hplace
      refine .under ?_ hstep (ih List.mem_cons_self hupper)
      rintro rfl
      exact hrest.fresh.2 _ (List.mem_of_getElem? hupper) (List.mem_cons_of_mem _ hid)

theorem closed (h : hierarchy.Climbs seen id chain) (hid : id ∈ seen)
    (hseen : ∀ lower ∈ seen, lower ≠ id → ∀ parent, hierarchy.Step lower parent → parent ∈ seen) :
    ∀ lower ∈ seen ++ chain, ∀ parent, hierarchy.Step lower parent → parent ∈ seen ++ chain := by
  induction h with
  | @root seen id hnone =>
    intro lower hlower parent hstep
    rw [List.append_nil] at hlower ⊢
    refine hseen lower hlower ?_ parent hstep
    rintro rfl
    rw [Step, hnone] at hstep
    contradiction
  | @met seen id top htop hmet =>
    intro lower hlower parent hstep
    rw [List.append_nil] at hlower ⊢
    by_cases hsame : lower = id
    · rw [hsame] at hstep
      rwa [← htop.unique hstep]
    · exact hseen lower hlower hsame parent hstep
  | @step seen chain id next hnext hnew hrest ih =>
    have hclosed := ih List.mem_cons_self <| by
      intro lower hlower hne parent hstep
      rcases List.mem_cons.mp hlower with rfl | hlower
      · exact absurd rfl hne
      · by_cases hsame : lower = id
        · rw [hsame] at hstep
          rw [hnext.unique hstep]
          exact List.mem_cons_self
        · exact List.mem_cons_of_mem _ (hseen lower hlower hsame parent hstep)
    have hmoved : ∀ other, other ∈ seen ++ next :: chain ↔ other ∈ next :: seen ++ chain := by
      intro other
      simp only [List.mem_append, List.mem_cons]
      tauto
    intro lower hlower parent hstep
    rw [hmoved] at hlower ⊢
    exact hclosed lower hlower parent hstep

end Climbs

theorem mem_ancestors : upper ∈ hierarchy.ancestors id ↔
    upper ≠ id ∧ TransGen hierarchy.Step id upper := by
  have hclimbs := hierarchy.ancestors_climbs id
  constructor
  · intro hupper
    obtain ⟨place, hplace⟩ := List.mem_iff_getElem?.mp hupper
    exact ⟨by simpa using hclimbs.fresh.2 upper hupper,
      (hclimbs.away List.mem_cons_self hplace).transGen⟩
  · rintro ⟨hne, hreach⟩
    have hclosed := hclimbs.closed List.mem_cons_self <| by
      intro lower hlower hother
      exact absurd (List.mem_singleton.mp hlower) hother
    have hall : upper ∈ [id] ++ hierarchy.ancestors id := by
      induction hreach with
      | single hstep => exact hclosed id List.mem_cons_self _ hstep
      | @tail lower upper hreach hstep ih =>
        by_cases hsame : lower = id
        · exact hclosed id List.mem_cons_self _ (hsame ▸ hstep)
        · exact hclosed lower (ih hsame) _ hstep
    simpa [hne] using hall

end Hierarchy

end RecordQuery
