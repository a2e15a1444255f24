import RecordQuery.Proofs.Record.Merge
import RecordQuery.Proofs.Value.Canonical

namespace RecordQuery

section Lookups

variable {α : Type} {first second : String × α} {rest more : List (String × α)}

theorem lookup_first (first : String × α) (rest : List (String × α)) :
    (first :: rest).lookup first.1 = some first.2 := List.lookup_cons_self

theorem lookup_eq_none_of_lt {name : String} (h : ∀ entry ∈ rest, name < entry.1) :
    rest.lookup name = none := by
  apply Record.lookup_eq_none
  intro hmem
  obtain ⟨entry, hentry, rfl⟩ := List.mem_map.mp hmem
  exact String.lt_irrefl _ (h entry hentry)

theorem first_le_of_lookup {name : String} {value : α}
    (h : (first :: rest).Pairwise (·.1 < ·.1))
    (hfound : (first :: rest).lookup name = some value) : first.1 ≤ name := by
  by_contra hnot
  have hlt : name < first.1 := String.not_le.mp hnot
  have hnone : (first :: rest).lookup name = none := by
    apply lookup_eq_none_of_lt
    intro entry hentry
    rcases List.mem_cons.mp hentry with rfl | hentry
    · exact hlt
    · exact String.lt_trans hlt ((List.pairwise_cons.mp h).1 entry hentry)
  rw [hnone] at hfound
  contradiction

theorem eq_of_lookup_eq {entries others : List (String × α)}
    (hentries : entries.Pairwise (·.1 < ·.1)) (hothers : others.Pairwise (·.1 < ·.1))
    (h : ∀ name, entries.lookup name = others.lookup name) : entries = others := by
  induction entries generalizing others with
  | nil =>
    cases others with
    | nil => rfl
    | cons second more =>
      exact absurd (h second.1) (by simp [lookup_first])
  | cons first rest ih =>
    cases others with
    | nil => exact absurd (h first.1) (by simp [lookup_first])
    | cons second more =>
      have hfirst := lookup_first first rest
      have hsecond := lookup_first second more
      have hname : first.1 = second.1 :=
        String.le_antisymm (first_le_of_lookup hentries ((h second.1).trans hsecond))
          (first_le_of_lookup hothers ((h first.1).symm.trans hfirst))
      have hvalue : first.2 = second.2 := by
        rw [← hname, ← h, hfirst] at hsecond
        exact Option.some.inj hsecond
      have hrests : ∀ name, rest.lookup name = more.lookup name := by
        intro name
        by_cases heq : name = first.1
        · rw [heq, lookup_eq_none_of_lt (List.pairwise_cons.mp hentries).1, hname,
            lookup_eq_none_of_lt (List.pairwise_cons.mp hothers).1]
        · have hlookup := h name
          rwa [List.lookup_cons, List.lookup_cons, ← hname, beq_false_of_ne heq] at hlookup
      rw [ih (List.pairwise_cons.mp hentries).2 (List.pairwise_cons.mp hothers).2 hrests,
        Prod.ext hname hvalue]

end Lookups

namespace Attributes

def canonicalEntry (entry : String × Value) : String × Value := (entry.1, entry.2.canonical)

theorem sameEntries_iff (entries others : List (String × Value)) :
    sameEntries entries others = true ↔ entries.map canonicalEntry = others.map canonicalEntry := by
  induction entries generalizing others with
  | nil => cases others <;> simp [sameEntries]
  | cons first rest ih =>
    cases others with
    | nil => simp [sameEntries]
    | cons second more => simp [sameEntries, canonicalEntry, ih, Value.same_iff, Prod.ext_iff]

theorem lookup_map_canonicalEntry (entries : List (String × Value)) (name : String) :
    (entries.map canonicalEntry).lookup name = (entries.lookup name).map Value.canonical := by
  induction entries with
  | nil => rfl
  | cons first rest ih =>
    rw [List.map_cons, List.lookup_cons, List.lookup_cons, ih]
    cases h : name == first.1 <;> simp [canonicalEntry, h]

theorem same_iff (a b : Attributes) : a.same b = true ↔
    ∀ name, (a.get? name).map Value.canonical = (b.get? name).map Value.canonical := by
  have hascending : ∀ attributes : Attributes,
      (attributes.entries.map canonicalEntry).Pairwise (·.1 < ·.1) :=
    fun attributes => List.pairwise_map.mpr attributes.ascending
  simp only [same, sameEntries_iff, get?, ← lookup_map_canonicalEntry]
  constructor
  · intro h name
    rw [h]
  · exact eq_of_lookup_eq (hascending a) (hascending b)

end Attributes

namespace Record

def SharesAttributes (a b : Record) : Prop :=
  ∀ name, (a.get? name).map Value.canonical = (b.get? name).map Value.canonical

theorem same_attributes_iff (a b : Record) :
    a.attributes.same b.attributes = true ↔ a.SharesAttributes b :=
  Attributes.same_iff a.attributes b.attributes

namespace SharesAttributes

variable {a b c : Record}

theorem refl (a : Record) : a.SharesAttributes a := fun _ => rfl

theorem trans (hab : a.SharesAttributes b) (hbc : b.SharesAttributes c) : a.SharesAttributes c :=
  fun name => (hab name).trans (hbc name)

end SharesAttributes

end Record

end RecordQuery
