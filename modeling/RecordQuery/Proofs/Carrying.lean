import Mathlib.Data.List.Forall2
import RecordQuery.Proofs.Outcome

namespace RecordQuery

universe u

variable {α β γ δ : Type u}

/-- The second step answers as the first one does, and fails as it does if failures count. -/
structure Carries (strict : Prop) (R : α → β → Prop) (first : Except Error α)
    (second : Except Error β) : Prop where
  ok : ∀ a, first = .ok a → ∃ b, second = .ok b ∧ R a b
  error : strict → ∀ fault, first = .error fault → second = .error fault

namespace Carries

variable {strict : Prop} {R : α → β → Prop} {S : γ → δ → Prop}

theorem of_ok {a : α} {b : β} (h : R a b) : Carries strict R (.ok a) (.ok b) := by
  constructor
  · intro x hx
    obtain rfl := Except.ok.inj hx
    exact ⟨b, rfl, h⟩
  · intro _ fault hfault
    contradiction

theorem of_error (fault : Error) :
    Carries strict R (.error fault : Except Error α) (.error fault : Except Error β) := by
  constructor
  · intro x hx
    contradiction
  · intro _ other hother
    rw [Except.error.inj hother]

theorem of_fault (fault : Error) (second : Except Error β) :
    Carries False R (.error fault : Except Error α) second where
  ok _ h := nomatch h
  error h := h.elim

theorem of_eq {first second : Except Error α} (h : second = first) :
    Carries strict Eq first second := by
  rw [h]
  cases first with
  | ok a => exact of_ok rfl
  | error fault => exact of_error fault

theorem eq {first second : Except Error α} (h : Carries True Eq first second) :
    second = first := by
  cases hfirst : first with
  | ok a =>
    obtain ⟨b, hb, rfl⟩ := h.ok a hfirst
    exact hb
  | error fault => exact h.error trivial fault hfirst

theorem error_iff {first : Except Error α} {second : Except Error β}
    (h : Carries True R first second) (fault : Error) :
    second = .error fault ↔ first = .error fault := by
  constructor
  · intro hsecond
    cases hfirst : first with
    | ok a =>
      obtain ⟨b, hb, -⟩ := h.ok a hfirst
      rw [hsecond] at hb
      contradiction
    | error other =>
      rw [h.error trivial other hfirst] at hsecond
      rw [Except.error.inj hsecond]
  · exact h.error trivial fault

theorem imp {R' : α → β → Prop} {first : Except Error α} {second : Except Error β}
    (h : Carries strict R first second) (himp : ∀ a b, R a b → R' a b) :
    Carries strict R' first second where
  ok a ha := by
    obtain ⟨b, hb, hab⟩ := h.ok a ha
    exact ⟨b, hb, himp a b hab⟩
  error := h.error

theorem answers {first : Except Error α} {second : Except Error β}
    (h : Carries strict R first second) : Carries False R first second where
  ok := h.ok
  error := False.elim

theorem bind {first : Except Error α} {second : Except Error β} {next : α → Except Error γ}
    {after : β → Except Error δ} (h : Carries strict R first second)
    (hnext : ∀ a b, R a b → Carries strict S (next a) (after b)) :
    Carries strict S (first >>= next) (second >>= after) := by
  constructor
  · intro c hc
    obtain ⟨a, ha, hc⟩ := bind_eq_ok_iff.mp hc
    obtain ⟨b, hb, hab⟩ := h.ok a ha
    obtain ⟨d, hd, hcd⟩ := (hnext a b hab).ok c hc
    exact ⟨d, bind_eq_ok_iff.mpr ⟨b, hb, hd⟩, hcd⟩
  · intro hstrict fault hfault
    cases hfirst : first with
    | error other =>
      rw [hfirst, error_bind] at hfault
      obtain rfl := Except.error.inj hfault
      rw [h.error hstrict other hfirst, error_bind]
    | ok a =>
      obtain ⟨b, hb, hab⟩ := h.ok a hfirst
      rw [hfirst, ok_bind] at hfault
      rw [hb, ok_bind, (hnext a b hab).error hstrict fault hfault]

theorem with_ok {first : Except Error α} {second : Except Error β}
    (h : Carries strict R first second) :
    Carries strict (fun a b => first = .ok a ∧ second = .ok b ∧ R a b) first second where
  ok a ha := by
    obtain ⟨b, hb, hab⟩ := h.ok a ha
    exact ⟨b, hb, ha, hb, hab⟩
  error := h.error

theorem map {first : Except Error α} {second : Except Error β} {f : α → γ} {g : β → δ}
    (h : Carries strict R first second) (hfg : ∀ a b, R a b → S (f a) (g b)) :
    Carries strict S (first.map f) (second.map g) := by
  constructor
  · intro c hc
    obtain ⟨a, ha, rfl⟩ := map_eq_ok_iff.mp hc
    obtain ⟨b, hb, hab⟩ := h.ok a ha
    exact ⟨g b, map_eq_ok_iff.mpr ⟨b, hb, rfl⟩, hfg a b hab⟩
  · intro hstrict fault hfault
    cases hfirst : first with
    | ok a =>
      rw [hfirst] at hfault
      contradiction
    | error other =>
      rw [hfirst] at hfault
      rw [h.error hstrict other hfirst, Except.map, Except.error.inj hfault]

theorem mapM {f : α → Except Error γ} {g : β → Except Error δ} {items : List α} {others : List β}
    (h : List.Forall₂ (fun a b => Carries strict S (f a) (g b)) items others) :
    Carries strict (List.Forall₂ S) (items.mapM f) (others.mapM g) := by
  induction h with
  | nil => exact of_ok .nil
  | cons hab _ ih =>
    rw [List.mapM_cons, List.mapM_cons]
    apply hab.bind
    intro c d hcd
    apply ih.bind
    intro cs ds hcsds
    exact of_ok (.cons hcd hcsds)

end Carries

theorem mapM_eq_of_forall₂ {f : α → Except Error γ} {g : β → Except Error γ} {items : List α}
    {others : List β} (h : List.Forall₂ (fun a b => g b = f a) items others) :
    others.mapM g = items.mapM f := by
  induction h with
  | nil => rfl
  | cons hab _ ih => rw [List.mapM_cons, List.mapM_cons, hab, ih]

end RecordQuery
