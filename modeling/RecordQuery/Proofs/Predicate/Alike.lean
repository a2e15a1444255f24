import Mathlib.Data.List.Forall2
import RecordQuery.Proofs.Carrying
import RecordQuery.Proofs.Predicate.Relaxed

namespace RecordQuery

namespace Predicate

def Alike (S : Record → Record → Prop) (p q : Predicate) : Prop :=
  ∀ row other, S row other → q.admits other = p.admits row ∧ q.faults other = p.faults row

variable {S : Record → Record → Prop}

theorem Alike.refl (p : Predicate) : Alike Eq p p := by
  rintro row _ rfl
  exact ⟨rfl, rfl⟩

theorem Alike.mono {T : Record → Record → Prop} {p q : Predicate} (h : Alike T p q)
    (himp : ∀ row other, S row other → T row other) : Alike S p q :=
  fun row other hS => h row other (himp row other hS)

theorem faults_of_isTrue {p : Predicate} (h : p.isTrue = true) (row : Record) :
    p.faults row = false := by
  cases p with
  | constant holds => rfl
  | _ => contradiction

theorem faultsInAll_filter_not_isTrue (parts : List Predicate) (row : Record) :
    faultsInAll (parts.filter fun part => !part.isTrue) row = faultsInAll parts row := by
  induction parts with
  | nil => rfl
  | cons part rest ih =>
    cases htrue : part.isTrue with
    | true =>
      rw [List.filter_cons_of_neg (by simp [htrue]), ih, faultsInAll, faults_of_isTrue htrue,
        admits_of_isTrue htrue, Bool.false_or, Bool.true_and]
    | false => rw [List.filter_cons_of_pos (by simp [htrue]), faultsInAll, faultsInAll, ih]

theorem faults_conjunction (parts : List Predicate) (row : Record) :
    (conjunction parts).faults row = faultsInAll parts row := by
  rw [← faultsInAll_filter_not_isTrue]
  unfold conjunction
  split
  · rename_i hnone
    rw [hnone]
    rfl
  · rename_i part hone
    simp [hone, faultsInAll]
  · simp [faults]

theorem faults_disjunction (parts : List Predicate) (row : Record) :
    (disjunction parts).faults row = faultsInAny parts row := by
  unfold disjunction
  split
  · rfl
  · simp [faultsInAny]
  · simp [faults]

namespace Alike

variable {parts others : List Predicate}

theorem all (h : List.Forall₂ (Alike S) parts others) {row other : Record} (hS : S row other) :
    allAdmit others other = allAdmit parts row ∧
      faultsInAll others other = faultsInAll parts row := by
  induction h with
  | nil => exact ⟨rfl, rfl⟩
  | cons hpart _ ih =>
    obtain ⟨hadmits, hfaults⟩ := hpart row other hS
    simp only [allAdmit, faultsInAll, hadmits, hfaults, ih, and_self]

theorem any (h : List.Forall₂ (Alike S) parts others) {row other : Record} (hS : S row other) :
    anyAdmits others other = anyAdmits parts row ∧
      faultsInAny others other = faultsInAny parts row := by
  induction h with
  | nil => exact ⟨rfl, rfl⟩
  | cons hpart _ ih =>
    obtain ⟨hadmits, hfaults⟩ := hpart row other hS
    simp only [anyAdmits, faultsInAny, hadmits, hfaults, ih, and_self]

theorem conjunction (h : List.Forall₂ (Alike S) parts others) :
    Alike S (Predicate.conjunction parts) (Predicate.conjunction others) := by
  intro row other hS
  rw [admits_conjunction, admits_conjunction, ← allAdmit_eq_all, ← allAdmit_eq_all,
    faults_conjunction, faults_conjunction]
  exact all h hS

theorem disjunction (h : List.Forall₂ (Alike S) parts others) :
    Alike S (Predicate.disjunction parts) (Predicate.disjunction others) := by
  intro row other hS
  cases h with
  | nil => exact ⟨rfl, rfl⟩
  | cons hpart hrest =>
    cases hrest with
    | nil => exact hpart row other hS
    | cons hsecond hrest => exact any (.cons hpart (.cons hsecond hrest)) hS

end Alike

end Predicate

namespace Filter

theorem combine_alike {S : Record → Record → Prop} {parts others : List Predicate}
    (connective : Connective) (h : List.Forall₂ (Predicate.Alike S) parts others) :
    Predicate.Alike S (combine connective parts) (combine connective others) := by
  cases connective with
  | and => exact Predicate.Alike.conjunction h
  | or => exact Predicate.Alike.disjunction h

theorem faults_combine {parts : List Predicate} {row : Record} (connective : Connective)
    (h : ∀ part ∈ parts, part.faults row = false) :
    (combine connective parts).faults row = false := by
  cases connective with
  | and =>
    rw [combine, Predicate.faults_conjunction]
    induction parts with
    | nil => rfl
    | cons part rest ih =>
      simp only [Predicate.faultsInAll, h part List.mem_cons_self,
        ih fun p hp => h p (List.mem_cons_of_mem _ hp), Bool.and_false, Bool.or_false]
  | or =>
    rw [combine, Predicate.faults_disjunction]
    induction parts with
    | nil => rfl
    | cons part rest ih =>
      simp only [Predicate.faultsInAny, h part List.mem_cons_self,
        ih fun p hp => h p (List.mem_cons_of_mem _ hp), Bool.and_false, Bool.or_false]

section Outer

variable {context : Context} {aliases : AliasMap} {scope : Scope}

mutual

theorem faults_of_allOuter {predicate : Predicate} : (filter : Filter) → filter.allOuter = true →
    filter.compile context aliases scope = .ok predicate → ∀ row, predicate.faults row = false
  | ⟨connective, conditions, filters⟩, hall, h, row => by
    simp only [allOuter, Bool.and_eq_true] at hall
    simp only [compile, compile_conditions_of_allOuter context aliases scope hall.1, ok_bind] at h
    obtain ⟨inner, hinner, h⟩ := bind_eq_ok_iff.mp h
    obtain rfl := Except.ok.inj h
    apply faults_combine
    intro part hpart
    rcases List.mem_append.mp hpart with hpart | hpart
    · obtain ⟨condition, -, rfl⟩ := List.mem_map.mp hpart
      rfl
    · exact faults_of_allOuterAll filters hall.2 hinner part hpart row

theorem faults_of_allOuterAll {predicates : List Predicate} : (filters : List Filter) →
    allOuterAll filters = true → compileAll context aliases scope filters = .ok predicates →
    ∀ predicate ∈ predicates, ∀ row, predicate.faults row = false
  | [], _, h, predicate, hmem, row => by
    obtain rfl := Except.ok.inj h
    contradiction
  | filter :: rest, hall, h, predicate, hmem, row => by
    simp only [allOuterAll, Bool.and_eq_true] at hall
    simp only [compileAll] at h
    obtain ⟨first, hfirst, h⟩ := bind_eq_ok_iff.mp h
    obtain ⟨others, hothers, h⟩ := bind_eq_ok_iff.mp h
    obtain rfl := Except.ok.inj h
    rcases List.mem_cons.mp hmem with rfl | hmem
    · exact faults_of_allOuter filter hall.1 hfirst row
    · exact faults_of_allOuterAll rest hall.2 hothers predicate hmem row

end

end Outer

theorem compile_relaxed_carries {strict : Prop} {S : Record → Record → Prop} {context : Context}
    {aliases others : AliasMap} {scope : Scope} (filter other : Filter) :
    Carries strict (Predicate.Alike S) (filter.relaxed.compile context aliases scope)
      (other.relaxed.compile context others scope) := by
  obtain ⟨p, hp, hadmits⟩ :=
    compile_of_allOuter context aliases scope filter.relaxed (allOuter_relaxed filter)
  obtain ⟨q, hq, hothers⟩ :=
    compile_of_allOuter context others scope other.relaxed (allOuter_relaxed other)
  rw [hp, hq]
  apply Carries.of_ok
  intro row row' _
  rw [hadmits row, hothers row', faults_of_allOuter _ (allOuter_relaxed filter) hp row,
    faults_of_allOuter _ (allOuter_relaxed other) hq row']
  exact ⟨rfl, rfl⟩

end Filter

end RecordQuery
