import RecordQuery.Magnitude

namespace RecordQuery

theorem totalOf_length_filter_key {α κ : Type} [DecidableEq κ] (key : α → κ) {keys : List κ}
    (hkeys : keys.Nodup) {items : List α} (hkey : ∀ item ∈ items, key item ∈ keys) :
    totalOf (keys.map fun k => (items.filter fun item => key item == k).length) =
      items.length := by
  induction keys generalizing items with
  | nil =>
    have hnone : items = [] :=
      List.eq_nil_iff_forall_not_mem.mpr fun item hitem => List.not_mem_nil (hkey item hitem)
    rw [hnone]
    rfl
  | cons first rest ih =>
    obtain ⟨hfirst, hrest⟩ := List.nodup_cons.mp hkeys
    -- the items of the other keys are among those that are left without the first key
    have hleft : ∀ k ∈ rest, (items.filter fun item => key item == k) =
        (items.filter fun item => !(key item == first)).filter fun item => key item == k := by
      intro k hk
      rw [List.filter_filter]
      apply List.filter_congr
      intro item _
      cases h : key item == k with
      | false => rfl
      | true =>
        have hne : key item ≠ first := by
          rintro rfl
          rw [beq_iff_eq.mp h] at hfirst
          exact hfirst hk
        rw [beq_eq_false_iff_ne.mpr hne]
        rfl
    have hothers : ∀ item ∈ items.filter (fun item => !(key item == first)), key item ∈ rest := by
      intro item hitem
      obtain ⟨hitem, hne⟩ := List.mem_filter.mp hitem
      rcases List.mem_cons.mp (hkey item hitem) with heq | hmem
      · simp [heq] at hne
      · exact hmem
    have hsplit : items.length = (items.filter fun item => key item == first).length +
        (items.filter fun item => !(key item == first)).length := by
      rw [List.length_eq_countP_add_countP fun item => key item == first,
        List.countP_eq_length_filter, List.countP_eq_length_filter]
      simp only [Bool.not_eq_true, Bool.decide_eq_false]
    rw [List.map_cons, totalOf, List.map_congr_left fun k hk => congrArg List.length (hleft k hk),
      ih hrest hothers, hsplit]

theorem totalOf_length_filterMap_key {α β κ : Type} [DecidableEq κ] (key : α → κ)
    (f : α → Option β) {keys : List κ} (hkeys : keys.Nodup) {items : List α}
    (hkey : ∀ item ∈ items, key item ∈ keys) :
    totalOf (keys.map fun k => ((items.filter fun item => key item == k).filterMap f).length) =
      (items.filterMap f).length := by
  have hlength (items : List α) :
      (items.filterMap f).length = (items.filter fun item => (f item).isSome).length := by
    rw [List.length_filterMap_eq_countP, List.countP_eq_length_filter]
  have hsome : ∀ item ∈ items.filter (fun item => (f item).isSome), key item ∈ keys :=
    fun item hitem => hkey item (List.mem_filter.mp hitem).1
  simp only [hlength, List.filter_filter, Bool.and_comm]
  simp only [← List.filter_filter]
  exact totalOf_length_filter_key key hkeys hsome

end RecordQuery
