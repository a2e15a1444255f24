import Mathlib.Data.List.Induction
import RecordQuery.Proofs.Record.SharedAttributes
import RecordQuery.Relation.Distinct

namespace RecordQuery.Relation

section Firsts

variable {α : Type} {same : α → α → Bool}

theorem pairwise_firsts (same : α → α → Bool) (items : List α) :
    (firsts same items).Pairwise fun a b => same a b = false := by
  induction items with
  | nil => exact .nil
  | cons item rest ih =>
    apply List.pairwise_cons.mpr
    refine ⟨fun other hother => ?_, ih.filter _⟩
    simpa using (List.mem_filter.mp hother).2

theorem firsts_of_pairwise {items : List α} (h : items.Pairwise fun a b => same a b = false) :
    firsts same items = items := by
  induction items with
  | nil => rfl
  | cons item rest ih =>
    obtain ⟨hitem, hrest⟩ := List.pairwise_cons.mp h
    rw [firsts, ih hrest, List.filter_eq_self.mpr]
    intro other hother
    simp [hitem other hother]

theorem firsts_concat (same : α → α → Bool) (items : List α) (item : α) :
    firsts same (items ++ [item]) =
      firsts same items ++ if items.any (same · item) then [] else [item] := by
  induction items with
  | nil => rfl
  | cons first rest ih =>
    rw [List.cons_append, firsts, ih, List.filter_append, firsts, List.any_cons]
    cases hfirst : same first item <;> cases hrest : rest.any (same · item) <;> simp [hfirst]

def isFirst (same : α → α → Bool) (items : List α) (place : Nat) : Bool :=
  items[place]?.any fun item => !(items.take place).any (same · item)

def firstPlaces (same : α → α → Bool) (items : List α) : List Nat :=
  (List.range items.length).filter (isFirst same items)

theorem isFirst_append {items : List α} {place : Nat} (h : place < items.length) (more : List α) :
    isFirst same (items ++ more) place = isFirst same items place := by
  rw [isFirst, isFirst, List.getElem?_append_left h, List.take_append_of_le_length h.le]

theorem firstPlaces_concat (same : α → α → Bool) (items : List α) (item : α) :
    firstPlaces same (items ++ [item]) =
      firstPlaces same items ++ if items.any (same · item) then [] else [items.length] := by
  have hbefore : (List.range items.length).filter (isFirst same (items ++ [item])) =
      firstPlaces same items := by
    apply List.filter_congr
    intro place hplace
    exact isFirst_append (List.mem_range.mp hplace) [item]
  have hlast : isFirst same (items ++ [item]) items.length = !items.any (same · item) := by
    simp [isFirst]
  rw [firstPlaces, List.length_append, List.length_singleton, List.range_succ, List.filter_append,
    hbefore, List.filter_singleton, hlast]
  cases items.any (same · item) <;> rfl

theorem lt_of_mem_firstPlaces {items : List α} {place : Nat} (h : place ∈ firstPlaces same items) :
    place < items.length :=
  List.mem_range.mp (List.mem_filter.mp h).1

theorem map_some_firsts (same : α → α → Bool) (items : List α) :
    (firsts same items).map some = (firstPlaces same items).map (items[·]?) := by
  induction items using List.reverseRecOn with
  | nil => rfl
  | append_singleton items item ih =>
    have hbefore : (firstPlaces same items).map ((items ++ [item])[·]?) =
        (firstPlaces same items).map (items[·]?) := by
      apply List.map_congr_left
      intro place hplace
      exact List.getElem?_append_left (lt_of_mem_firstPlaces hplace)
    rw [firsts_concat, firstPlaces_concat, List.map_append, List.map_append, ih, hbefore]
    cases items.any (same · item) <;> simp

end Firsts

def IsFirstRow (rows : List Record) (place : Nat) : Prop :=
  ∃ row, rows[place]? = some row ∧ ∀ earlier ∈ rows.take place, ¬ earlier.SharesAttributes row

theorem mem_firstPlaces_iff (rows : List Record) (place : Nat) :
    place ∈ firstPlaces (fun a b => a.attributes.same b.attributes) rows ↔
      IsFirstRow rows place := by
  rw [firstPlaces, List.mem_filter, List.mem_range]
  constructor
  · rintro ⟨hplace, hfirst⟩
    refine ⟨rows[place], List.getElem?_eq_getElem hplace, ?_⟩
    simpa [isFirst, hplace, Record.same_attributes_iff, ← Bool.not_eq_true] using hfirst
  · rintro ⟨row, hrow, hfirst⟩
    refine ⟨(List.getElem?_eq_some_iff.mp hrow).1, ?_⟩
    simpa [isFirst, hrow, Record.same_attributes_iff, ← Bool.not_eq_true] using hfirst

theorem exists_firstRow {rows : List Record} {place : Nat} {row : Record}
    (h : rows[place]? = some row) : ∃ first ≤ place, IsFirstRow rows first ∧
      ∃ other, rows[first]? = some other ∧ other.SharesAttributes row := by
  induction place using Nat.strongRecOn generalizing row with
  | ind place ih =>
    by_cases hfirst : IsFirstRow rows place
    · exact ⟨place, Nat.le_refl place, hfirst, row, h, .refl row⟩
    · obtain ⟨earlier, hearlier, hshares⟩ :
          ∃ earlier ∈ rows.take place, earlier.SharesAttributes row := by
        by_contra hnone
        push Not at hnone
        exact hfirst ⟨row, h, hnone⟩
      obtain ⟨before, hbefore⟩ := List.getElem?_of_mem hearlier
      rw [List.getElem?_take, Option.ite_none_right_eq_some] at hbefore
      obtain ⟨first, hle, hisFirst, other, hother, htrans⟩ := ih before hbefore.1 hbefore.2
      exact ⟨first, hle.trans hbefore.1.le, hisFirst, other, hother, htrans.trans hshares⟩

theorem distinct_distinct (relation : Relation) :
    relation.distinct.distinct = relation.distinct := by
  have hfirsts := firsts_of_pairwise (pairwise_firsts
    (fun a b : Record => a.attributes.same b.attributes) relation.records)
  simp only [distinct, withRecords, hfirsts]

/-- Kept are the rows at the first places, in their order, and for each row that is lost there is
one in front of it. -/
theorem distinct_keeps_firstRows (relation : Relation) :
    (∃ kept : List Nat, kept.Pairwise (· < ·) ∧
      (∀ place, place ∈ kept ↔ IsFirstRow relation.records place) ∧
      relation.distinct.records.map some = kept.map (relation.records[·]?) ∧
      ∀ place row, relation.records[place]? = some row → ∃ first ∈ kept, first ≤ place ∧
        ∃ other, relation.records[first]? = some other ∧ other.SharesAttributes row) ∧
    relation.distinct.records.Sublist relation.records ∧
    (relation.distinct.records.Pairwise fun a b => ¬ a.SharesAttributes b) ∧
    relation.distinct.distinct = relation.distinct ∧
    relation.distinct.aliases = relation.aliases := by
  refine ⟨⟨firstPlaces _ relation.records, List.pairwise_lt_range.filter _,
    mem_firstPlaces_iff relation.records, map_some_firsts _ relation.records, ?_⟩,
    firsts_sublist _ relation.records, ?_, distinct_distinct relation, rfl⟩
  · intro place row hrow
    obtain ⟨first, hle, hfirst, hshares⟩ := exists_firstRow hrow
    exact ⟨first, (mem_firstPlaces_iff relation.records first).mpr hfirst, hle, hshares⟩
  · apply (pairwise_firsts _ relation.records).imp
    intro a b hdiffer hshares
    rw [(Record.same_attributes_iff a b).mpr hshares] at hdiffer
    contradiction

end RecordQuery.Relation
