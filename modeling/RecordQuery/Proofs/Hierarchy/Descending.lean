import RecordQuery.Proofs.Hierarchy.Climbing

/-!
The way down, level by level. What waits is of one level, then of the next, so what is found after
it is at least as far from the start.
-/

namespace RecordQuery

namespace Hierarchy

open Relation

variable {hierarchy : Hierarchy} {id lower : Uuid} {seen waiting found : List Uuid}

def unseen (hierarchy : Hierarchy) (seen : List Uuid) (id : Uuid) : List Uuid :=
  (hierarchy.children id).filter fun child => !seen.contains child

inductive Descends (hierarchy : Hierarchy) : List Uuid → List Uuid → List Uuid → Prop where
  | done {seen : List Uuid} : hierarchy.Descends seen [] []
  | step {seen waiting found : List Uuid} {id : Uuid}
      (rest : hierarchy.Descends (seen ++ hierarchy.unseen seen id)
        (waiting ++ hierarchy.unseen seen id) found) :
      hierarchy.Descends seen (id :: waiting) (hierarchy.unseen seen id ++ found)

theorem mem_unseen : lower ∈ hierarchy.unseen seen id ↔ hierarchy.Step lower id ∧ lower ∉ seen := by
  rw [unseen, List.mem_filter, mem_children]
  simp

theorem nodup_unseen (hierarchy : Hierarchy) (seen : List Uuid) (id : Uuid) :
    (hierarchy.unseen seen id).Nodup :=
  (hierarchy.nodup_children id).filter _

theorem nodup_append_unseen (id : Uuid) (hseen : seen.Nodup) :
    (seen ++ hierarchy.unseen seen id).Nodup := by
  refine List.nodup_append.mpr ⟨hseen, hierarchy.nodup_unseen seen id, ?_⟩
  rintro child hchild other hother rfl
  exact (mem_unseen.mp hother).2 hchild

theorem descend_descends {steps : Nat} (start : Uuid) (hnodup : seen.Nodup)
    (hstored : seen ⊆ start :: hierarchy.stored)
    (hsteps : waiting.length + (hierarchy.stored.length + 1) ≤ steps + seen.length) :
    hierarchy.Descends seen waiting (hierarchy.descend steps seen waiting) := by
  induction steps generalizing seen waiting with
  | zero =>
    have hlength := (hnodup.subperm hstored).length_le
    rw [List.length_cons] at hlength
    obtain rfl : waiting = [] := List.length_eq_zero_iff.mp (by omega)
    exact .done
  | succ steps ih =>
    cases waiting with
    | nil => exact .done
    | cons id waiting =>
      refine .step (ih (nodup_append_unseen id hnodup) ?_ ?_)
      · refine List.append_subset.mpr ⟨hstored, fun child hchild => ?_⟩
        exact List.mem_cons_of_mem _ (mem_unseen.mp hchild).1.stored
      · simp only [List.length_append, List.length_cons] at hsteps ⊢
        omega

theorem descendants_descends (hierarchy : Hierarchy) (id : Uuid) :
    hierarchy.Descends [id] [id] (hierarchy.descendants id) := by
  refine descend_descends id (List.nodup_singleton id) ?_ ?_
  · exact List.cons_subset.mpr ⟨List.mem_cons_self, List.nil_subset _⟩
  · rw [length_stored, List.length_singleton]
    omega

namespace Descends

theorem unique {others : List Uuid} (h : hierarchy.Descends seen waiting found)
    (hothers : hierarchy.Descends seen waiting others) : found = others := by
  induction h generalizing others with
  | done =>
    cases hothers
    rfl
  | step _ ih =>
    obtain _ | hrest := hothers
    rw [ih hrest]

theorem fresh (h : hierarchy.Descends seen waiting found) :
    found.Nodup ∧ ∀ lower ∈ found, lower ∉ seen := by
  induction h with
  | done => exact ⟨List.nodup_nil, nofun⟩
  | @step seen waiting found id _ ih =>
    obtain ⟨hnodup, hfresh⟩ := ih
    constructor
    · refine List.nodup_append.mpr ⟨hierarchy.nodup_unseen seen id, hnodup, ?_⟩
      rintro lower hlower other hother rfl
      exact hfresh lower hother (List.mem_append_right _ hlower)
    · intro lower hlower
      rcases List.mem_append.mp hlower with hlower | hlower
      · exact (mem_unseen.mp hlower).2
      · exact fun hmem => hfresh lower hlower (List.mem_append_left _ hmem)

theorem above (h : hierarchy.Descends seen waiting found) :
    ∀ lower ∈ found, ∃ upper ∈ waiting, TransGen hierarchy.Step lower upper := by
  induction h with
  | done => nofun
  | @step seen waiting found id _ ih =>
    intro lower hlower
    rcases List.mem_append.mp hlower with hlower | hlower
    · exact ⟨id, List.mem_cons_self, .single (mem_unseen.mp hlower).1⟩
    · obtain ⟨upper, hupper, hreach⟩ := ih lower hlower
      rcases List.mem_append.mp hupper with hupper | hupper
      · exact ⟨upper, List.mem_cons_of_mem _ hupper, hreach⟩
      · exact ⟨id, List.mem_cons_self, hreach.tail (mem_unseen.mp hupper).1⟩

theorem closed (h : hierarchy.Descends seen waiting found)
    (hseen : ∀ upper ∈ seen, upper ∉ waiting →
      ∀ child, hierarchy.Step child upper → child ∈ seen) :
    ∀ upper ∈ seen ++ found, ∀ child, hierarchy.Step child upper → child ∈ seen ++ found := by
  induction h with
  | done =>
    intro upper hupper child hchild
    rw [List.append_nil] at hupper ⊢
    exact hseen upper hupper List.not_mem_nil child hchild
  | @step seen waiting found id _ ih =>
    rw [← List.append_assoc]
    refine ih fun upper hupper hwaiting child hchild => ?_
    rw [List.mem_append, not_or] at hwaiting
    have hupper : upper ∈ seen := (List.mem_append.mp hupper).resolve_right hwaiting.2
    rw [List.mem_append]
    by_cases hmem : child ∈ seen
    · exact .inl hmem
    · by_cases hid : upper = id
      · subst hid
        exact .inr (mem_unseen.mpr ⟨hchild, hmem⟩)
      · have hwaits : upper ∉ id :: waiting := List.not_mem_cons_of_ne_of_not_mem hid hwaiting.1
        exact .inl (hseen upper hupper hwaits child hchild)

end Descends

theorem mem_descendants : lower ∈ hierarchy.descendants id ↔
    lower ≠ id ∧ TransGen hierarchy.Step lower id := by
  have hdescends := hierarchy.descendants_descends id
  constructor
  · intro hlower
    obtain ⟨upper, hupper, hreach⟩ := hdescends.above lower hlower
    exact ⟨by simpa using hdescends.fresh.2 lower hlower, List.mem_singleton.mp hupper ▸ hreach⟩
  · rintro ⟨hne, hreach⟩
    have hclosed := hdescends.closed fun upper hupper hnot => absurd hupper hnot
    have hall : lower ∈ [id] ++ hierarchy.descendants id :=
      hreach.closed' (fun hstep hupper => hclosed _ hupper _ hstep) List.mem_cons_self
    simpa [hne] using hall

def Levels (hierarchy : Hierarchy) (start : Uuid) (level : Nat) (waiting : List Uuid) : Prop :=
  ∃ near far, waiting = near ++ far ∧ (∀ id ∈ near, hierarchy.Away start level id) ∧
    ∀ id ∈ far, hierarchy.Away start (level + 1) id

theorem Levels.step {start : Uuid} {level : Nat} (h : hierarchy.Levels start level (id :: waiting))
    (hstart : start ∈ seen) : ∃ higher ≥ level,
      (∀ child ∈ hierarchy.unseen seen id, hierarchy.Away start (higher + 1) child) ∧
      hierarchy.Levels start higher (waiting ++ hierarchy.unseen seen id) := by
  have hchildren {higher : Nat} (hid : hierarchy.Away start higher id) :
      ∀ child ∈ hierarchy.unseen seen id, hierarchy.Away start (higher + 1) child := by
    intro child hchild
    obtain ⟨hstep, hnew⟩ := mem_unseen.mp hchild
    refine .under ?_ hstep hid
    rintro rfl
    exact hnew hstart
  obtain ⟨near, far, hsplit, hnear, hfar⟩ := h
  cases near with
  | nil =>
    obtain rfl : id :: waiting = far := hsplit
    have hid := hchildren (hfar id List.mem_cons_self)
    refine ⟨level + 1, Nat.le_succ level, hid, waiting, _, rfl, ?_, hid⟩
    exact fun other hother => hfar other (List.mem_cons_of_mem _ hother)
  | cons first near =>
    obtain ⟨rfl, rfl⟩ := List.cons.inj hsplit
    have hid := hchildren (hnear id List.mem_cons_self)
    refine ⟨level, Nat.le_refl level, hid, near, far ++ hierarchy.unseen seen id,
      List.append_assoc .., fun other hother => hnear other (List.mem_cons_of_mem _ hother), ?_⟩
    intro other hother
    rcases List.mem_append.mp hother with hother | hother
    · exact hfar other hother
    · exact hid other hother

theorem Descends.ascending {start : Uuid} {level : Nat} (h : hierarchy.Descends seen waiting found)
    (hstart : start ∈ seen) (hlevels : hierarchy.Levels start level waiting) :
    (∀ lower ∈ found, ∃ steps > level, hierarchy.Away start steps lower) ∧
      found.Pairwise fun lower other => ∃ steps further, steps ≤ further ∧
        hierarchy.Away start steps lower ∧ hierarchy.Away start further other := by
  induction h generalizing level with
  | done => exact ⟨nofun, .nil⟩
  | @step seen waiting found id _ ih =>
    obtain ⟨higher, hle, hchildren, hnext⟩ := hlevels.step hstart
    obtain ⟨hbeyond, hordered⟩ := ih (List.mem_append_left _ hstart) hnext
    constructor
    · intro lower hlower
      rcases List.mem_append.mp hlower with hlower | hlower
      · exact ⟨higher + 1, Nat.lt_succ_of_le hle, hchildren lower hlower⟩
      · obtain ⟨steps, hsteps, haway⟩ := hbeyond lower hlower
        exact ⟨steps, Nat.lt_of_le_of_lt hle hsteps, haway⟩
    · refine List.pairwise_append.mpr ⟨?_, hordered, ?_⟩
      · refine List.pairwise_of_forall_mem_list fun lower hlower other hother => ?_
        exact ⟨higher + 1, higher + 1, Nat.le_refl _, hchildren lower hlower,
          hchildren other hother⟩
      · intro lower hlower other hother
        obtain ⟨steps, hsteps, haway⟩ := hbeyond other hother
        exact ⟨higher + 1, steps, hsteps, hchildren lower hlower, haway⟩

end Hierarchy

end RecordQuery
