import Mathlib.Data.List.Perm.Basic
import RecordQuery.Relation.Sort

namespace RecordQuery.Relation

theorem insertLast_perm (keys : List SortKey) (record : Record) (sorted : List Record) :
    (insertLast keys record sorted).Perm (record :: sorted) := by
  induction sorted with
  | nil => exact List.Perm.refl _
  | cons last rest ih =>
    unfold insertLast
    split
    · exact (ih.cons last).trans (List.Perm.swap record last rest)
    · exact List.Perm.refl _

theorem sort_perm (keys : List SortKey) (relation : Relation) :
    (relation.sort keys).records.Perm relation.records := by
  have hfold : ∀ records sorted : List Record,
      (records.foldl (fun sorted record => insertLast keys record sorted) sorted).Perm
        (sorted ++ records) := by
    intro records
    induction records with
    | nil =>
      intro sorted
      rw [List.append_nil]
      exact List.Perm.refl _
    | cons record rest ih =>
      intro sorted
      rw [List.foldl_cons]
      apply (ih _).trans
      apply ((insertLast_perm keys record sorted).append_right rest).trans
      exact List.perm_middle.symm
  exact (List.reverse_perm _).trans (hfold relation.records [])

theorem insertLast_congr {keys others : List SortKey} {record : Record} {sorted : List Record}
    (h : ∀ last ∈ sorted, SortKey.orderBy others record last = SortKey.orderBy keys record last) :
    insertLast others record sorted = insertLast keys record sorted := by
  induction sorted with
  | nil => rfl
  | cons last rest ih =>
    rw [insertLast, insertLast, h last List.mem_cons_self,
      ih fun other hother => h other (List.mem_cons_of_mem _ hother)]

theorem sort_congr {keys others : List SortKey} {relation : Relation}
    (h : ∀ row ∈ relation.records, ∀ last ∈ relation.records,
      SortKey.orderBy others row last = SortKey.orderBy keys row last) :
    relation.sort others = relation.sort keys := by
  have hfold : ∀ records sorted : List Record, records ⊆ relation.records →
      sorted ⊆ relation.records →
      records.foldl (fun sorted record => insertLast others record sorted) sorted =
        records.foldl (fun sorted record => insertLast keys record sorted) sorted := by
    intro records
    induction records with
    | nil => exact fun sorted _ _ => rfl
    | cons record rest ih =>
      intro sorted hrecords hsorted
      obtain ⟨hrecord, hrest⟩ := List.cons_subset.mp hrecords
      rw [List.foldl_cons, List.foldl_cons,
        insertLast_congr fun last hlast => h record hrecord last (hsorted hlast)]
      apply ih _ hrest
      intro row hrow
      rcases List.mem_cons.mp ((insertLast_perm keys record sorted).subset hrow) with rfl | hrow
      · exact hrecord
      · exact hsorted hrow
  unfold sort
  rw [hfold relation.records [] (List.Subset.refl _) (List.nil_subset _)]

end RecordQuery.Relation
