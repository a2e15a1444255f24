import RecordQuery.Predicate.Compile
import RecordQuery.Proofs.Hierarchy.Descending

namespace RecordQuery

namespace Hierarchy

open Relation

def Acyclic (hierarchy : Hierarchy) : Prop := ∀ id, ¬ TransGen hierarchy.Step id id

theorem climbs_iff {hierarchy : Hierarchy} {id : Uuid} {chain : List Uuid} :
    hierarchy.Climbs [id] id chain ↔ chain = hierarchy.ancestors id := by
  constructor
  · intro h
    exact h.unique (hierarchy.ancestors_climbs id)
  · rintro rfl
    exact hierarchy.ancestors_climbs id

theorem descends_iff {hierarchy : Hierarchy} {id : Uuid} {found : List Uuid} :
    hierarchy.Descends [id] [id] found ↔ found = hierarchy.descendants id := by
  constructor
  · intro h
    exact h.unique (hierarchy.descendants_descends id)
  · rintro rfl
    exact hierarchy.descendants_descends id

theorem nodup_ancestors (hierarchy : Hierarchy) (id : Uuid) :
    (hierarchy.ancestors id).Nodup ∧ id ∉ hierarchy.ancestors id := by
  obtain ⟨hnodup, hfresh⟩ := (hierarchy.ancestors_climbs id).fresh
  exact ⟨hnodup, fun hmem => hfresh id hmem List.mem_cons_self⟩

theorem nodup_descendants (hierarchy : Hierarchy) (id : Uuid) :
    (hierarchy.descendants id).Nodup ∧ id ∉ hierarchy.descendants id := by
  obtain ⟨hnodup, hfresh⟩ := (hierarchy.descendants_descends id).fresh
  exact ⟨hnodup, fun hmem => hfresh id hmem List.mem_cons_self⟩

theorem mem_ancestors_iff_mem_descendants {hierarchy : Hierarchy} {lower upper : Uuid} :
    upper ∈ hierarchy.ancestors lower ↔ lower ∈ hierarchy.descendants upper := by
  rw [mem_ancestors, mem_descendants, ne_comm]

theorem ordered_descendants (hierarchy : Hierarchy) (upper : Uuid) :
    (∀ lower ∈ hierarchy.descendants upper, ∃ steps, hierarchy.Away upper steps lower) ∧
      (hierarchy.descendants upper).Pairwise fun lower other =>
        ∃ steps further, steps ≤ further ∧ hierarchy.Away upper steps lower ∧
          hierarchy.Away upper further other := by
  have hlevels : hierarchy.Levels upper 0 [upper] := by
    refine ⟨[upper], [], rfl, fun id hid => ?_, nofun⟩
    obtain rfl := List.mem_singleton.mp hid
    exact .here
  obtain ⟨haway, hordered⟩ :=
    (hierarchy.descendants_descends upper).ascending List.mem_cons_self hlevels
  refine ⟨fun lower hlower => ?_, hordered⟩
  obtain ⟨steps, -, hsteps⟩ := haway lower hlower
  exact ⟨steps, hsteps⟩

theorem mem_kinOf_both {hierarchy : Hierarchy} (hacyclic : hierarchy.Acyclic) {id other : Uuid}
    (hid : hierarchy.contains id = true) :
    other ∈ Condition.kinOf hierarchy .aboveOrEqual id ∧
      other ∈ Condition.kinOf hierarchy .underOrEqual id ↔ other = id := by
  unfold Condition.kinOf
  rw [if_pos hid, if_pos hid, List.mem_cons, List.mem_cons]
  constructor
  · rintro ⟨habove | habove, hbelow | hbelow⟩
    · exact habove
    · exact habove
    · exact hbelow
    · have hup := (mem_ancestors.mp habove).2
      have hdown := (mem_descendants.mp hbelow).2
      exact absurd (hup.trans hdown) (hacyclic id)
  · rintro rfl
    exact ⟨.inl rfl, .inl rfl⟩

theorem kinship_closure (hierarchy : Hierarchy) :
    (∀ id chain, hierarchy.Climbs [id] id chain ↔ chain = hierarchy.ancestors id) ∧
    (∀ id found, hierarchy.Descends [id] [id] found ↔ found = hierarchy.descendants id) ∧
    (∀ id, (hierarchy.ancestors id).Nodup ∧ id ∉ hierarchy.ancestors id) ∧
    (∀ id, (hierarchy.descendants id).Nodup ∧ id ∉ hierarchy.descendants id) ∧
    (∀ lower upper, upper ∈ hierarchy.ancestors lower ↔
      upper ≠ lower ∧ TransGen hierarchy.Step lower upper) ∧
    (∀ lower place upper, (hierarchy.ancestors lower)[place]? = some upper →
      hierarchy.Away upper (place + 1) lower) ∧
    (∀ lower upper, upper ∈ hierarchy.ancestors lower ↔ lower ∈ hierarchy.descendants upper) ∧
    (∀ upper, (∀ lower ∈ hierarchy.descendants upper, ∃ steps, hierarchy.Away upper steps lower) ∧
      (hierarchy.descendants upper).Pairwise fun lower other =>
        ∃ steps further, steps ≤ further ∧ hierarchy.Away upper steps lower ∧
          hierarchy.Away upper further other) ∧
    (hierarchy.Acyclic → ∀ id, hierarchy.contains id = true → ∀ other,
      other ∈ Condition.kinOf hierarchy .aboveOrEqual id ∧
        other ∈ Condition.kinOf hierarchy .underOrEqual id ↔ other = id) := by
  refine ⟨fun _ _ => climbs_iff, fun _ _ => descends_iff, hierarchy.nodup_ancestors,
    hierarchy.nodup_descendants, fun _ _ => mem_ancestors, ?_,
    fun _ _ => mem_ancestors_iff_mem_descendants, hierarchy.ordered_descendants,
    fun hacyclic _ hid _ => mem_kinOf_both hacyclic hid⟩
  intro lower place upper hplace
  exact (hierarchy.ancestors_climbs lower).away List.mem_cons_self hplace

def holding : Record := ⟨"account", .ofNat 1, .empty⟩

def branch : Record := ⟨"account", .ofNat 2, .ofList [("parent", .uuid (.ofNat 1))]⟩

def twoAccounts : Hierarchy := ⟨.ofList [holding, branch], "account", "parent"⟩

theorem step_twoAccounts {id parent : Uuid} (h : twoAccounts.Step id parent) :
    id = .ofNat 2 ∧ parent = .ofNat 1 := by
  obtain ⟨record, hrecord, hparent⟩ := Option.bind_eq_some_iff.mp h
  obtain ⟨hmem, rfl⟩ := Store.get?_eq_some_iff.mp hrecord
  have hrecords : record ∈ [holding, branch] := hmem
  rcases List.mem_cons.mp hrecords with rfl | hrecords
  · have hnone : twoAccounts.parentIn holding = none := by rfl
    exact absurd (hnone.symm.trans hparent) nofun
  · obtain rfl := List.mem_singleton.mp hrecords
    have hone : twoAccounts.parentIn branch = some (.ofNat 1) := by rfl
    exact ⟨rfl, Option.some.inj (hparent.symm.trans hone)⟩

theorem acyclic_twoAccounts : twoAccounts.Acyclic := by
  intro id hcircle
  obtain ⟨next, hfirst, -⟩ := TransGen.head'_iff.mp hcircle
  obtain ⟨before, -, hlast⟩ := TransGen.tail'_iff.mp hcircle
  have hlower := (step_twoAccounts hfirst).1
  have hupper := (step_twoAccounts hlast).2
  rw [hlower] at hupper
  exact absurd hupper (by decide)

theorem kinship_twoAccounts : twoAccounts.Acyclic ∧ twoAccounts.contains (.ofNat 2) = true ∧
    twoAccounts.ancestors (.ofNat 2) = [.ofNat 1] ∧ twoAccounts.Away (.ofNat 1) 1 (.ofNat 2) ∧
    ∀ other, other ∈ Condition.kinOf twoAccounts .aboveOrEqual (.ofNat 2) ∧
      other ∈ Condition.kinOf twoAccounts .underOrEqual (.ofNat 2) ↔ other = .ofNat 2 := by
  obtain ⟨-, -, -, -, -, haway, -, -, hboth⟩ := kinship_closure twoAccounts
  have hcontains : twoAccounts.contains (.ofNat 2) = true := by rfl
  have hancestors : twoAccounts.ancestors (.ofNat 2) = [.ofNat 1] := by rfl
  refine ⟨acyclic_twoAccounts, hcontains, hancestors, ?_, ?_⟩
  · exact haway (.ofNat 2) 0 (.ofNat 1) (by rw [hancestors, List.getElem?_cons_zero])
  · exact hboth acyclic_twoAccounts (.ofNat 2) hcontains

end Hierarchy

end RecordQuery
