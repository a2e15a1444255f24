import Mathlib.Data.List.Forall2
import RecordQuery.Proofs.Carrying
import RecordQuery.Proofs.Predicate.Presence

namespace RecordQuery

variable {S : Record → Record → Prop} {records others : List Record}

def Accessor.Keeps (accessor : Accessor) (S : Record → Record → Prop) : Prop :=
  ∀ row other, S row other → accessor.ReadsAlike row other

namespace SortKey

theorem orderBy_congr {keys : List SortKey} (hkeys : ∀ key ∈ keys, key.accessor.Keeps S)
    {a a' b b' : Record} (ha : S a a') (hb : S b b') : orderBy keys a' b' = orderBy keys a b := by
  induction keys with
  | nil => rfl
  | cons key rest ih =>
    have hfirst := hkeys key List.mem_cons_self
    have hascending : ascendingOrder key.accessor a' b' = ascendingOrder key.accessor a b := by
      unfold ascendingOrder
      rw [hfirst a a' ha, hfirst b b' hb]
    rw [orderBy, orderBy, order, order, hascending,
      ih fun key hkey => hkeys key (List.mem_cons_of_mem _ hkey)]

end SortKey

namespace Relation

theorem insertLast_alike {keys : List SortKey} (hkeys : ∀ key ∈ keys, key.accessor.Keeps S)
    {record other : Record} (hS : S record other) (h : List.Forall₂ S records others) :
    List.Forall₂ S (insertLast keys record records) (insertLast keys other others) := by
  induction h with
  | nil => exact .cons hS .nil
  | @cons last last' rest rest' hlast hrest ih =>
    unfold insertLast
    rw [SortKey.orderBy_congr hkeys hS hlast]
    split
    · exact .cons hlast ih
    · exact .cons hS (.cons hlast hrest)

theorem sort_alike {keys : List SortKey} (hkeys : ∀ key ∈ keys, key.accessor.Keeps S)
    {relation relation' : Relation} (h : List.Forall₂ S relation.records relation'.records) :
    List.Forall₂ S (relation.sort keys).records (relation'.sort keys).records := by
  have hsorted : List.Forall₂ S
      (relation.records.foldl (fun sorted record => insertLast keys record sorted) [])
      (relation'.records.foldl (fun sorted record => insertLast keys record sorted) []) := by
    refine List.rel_foldl ?_ .nil h
    intro sorted sorted' hsorted row other hS
    exact insertLast_alike hkeys hS hsorted
  exact List.rel_reverse hsorted

end Relation

namespace Accessor

variable {accessor : Accessor} {row : Record}

theorem read?_of_readPresent? {value : Value} (h : accessor.readPresent? row = some value) :
    accessor.read? row = some value :=
  (Option.filter_eq_some_iff.mp h).1

end Accessor

namespace AggregateColumn

variable {column : AggregateColumn} {offset : UtcOffset} {row other : Record}
variable {group others : List Record}

theorem groupValue_of_absent {grouping? : Option DateGrouping}
    (h : column.accessor.readPresent? row = none) :
    column.groupValue offset grouping? row = .ok .null := by
  unfold groupValue
  rcases Accessor.readPresent?_eq_none_iff.mp h with hread | hread <;> rw [hread]
  cases grouping? <;> rfl

theorem groupValue_present {grouping? : Option DateGrouping}
    (h : column.accessor.ReadsAlike row other) :
    column.groupValue offset grouping? other = column.groupValue offset grouping? row := by
  unfold Accessor.ReadsAlike at h
  cases hpresent : column.accessor.readPresent? row with
  | none => rw [groupValue_of_absent hpresent, groupValue_of_absent (h.trans hpresent)]
  | some value =>
    unfold groupValue
    rw [Accessor.read?_of_readPresent? hpresent,
      Accessor.read?_of_readPresent? (h.trans hpresent)]

theorem presentValues_present (hcolumn : column.accessor.Keeps S)
    (h : List.Forall₂ S group others) :
    column.presentValues others = column.presentValues group := by
  unfold presentValues
  induction h with
  | nil => rfl
  | cons hS _ ih => rw [List.filterMap_cons, List.filterMap_cons, hcolumn _ _ hS, ih]

theorem value_present (hcolumn : column.accessor.Keeps S) (h : List.Forall₂ S group others) :
    column.value offset others = column.value offset group := by
  unfold value
  split
  · cases h with
    | nil => rfl
    | cons hS _ => exact groupValue_present (hcolumn _ _ hS)
  · unfold apply
    rw [presentValues_present hcolumn h, h.length_eq]

end AggregateColumn

namespace Relation

variable {S : Record → Record → Prop} {columns : List AggregateColumn} {offset : UtcOffset}

theorem groupKey_present (hcolumns : ∀ column ∈ columns, column.accessor.Keeps S)
    {row other : Record} (hS : S row other) :
    groupKey offset columns other = groupKey offset columns row := by
  unfold groupKey
  induction columns with
  | nil => rfl
  | cons column rest ih =>
    have hrest := ih fun column hcolumn => hcolumns column (List.mem_cons_of_mem _ hcolumn)
    have hfirst := hcolumns column List.mem_cons_self row other hS
    rw [List.filterMapM_cons, List.filterMapM_cons, hrest]
    cases column.role with
    | groupBy grouping? => simp only [AggregateColumn.groupValue_present hfirst]
    | apply function distinct => rfl

theorem groupRow_present (hcolumns : ∀ column ∈ columns, column.accessor.Keeps S)
    {group others : List Record} (h : List.Forall₂ S group others) (entity : String) :
    groupRow entity offset columns others = groupRow entity offset columns group := by
  unfold groupRow
  generalize (⟨entity, .nil, .empty⟩ : Record) = row
  induction columns generalizing row with
  | nil => rfl
  | cons column rest ih =>
    rw [List.foldlM_cons, List.foldlM_cons,
      AggregateColumn.value_present (hcolumns column List.mem_cons_self) h]
    congr 1
    funext next
    exact ih (fun column hcolumn => hcolumns column (List.mem_cons_of_mem _ hcolumn)) next

def GroupsAlike (S : Record → Record → Prop) :
    List (List (Option Scalar) × List Record) → List (List (Option Scalar) × List Record) → Prop :=
  List.Forall₂ fun group other => other.1 = group.1 ∧ List.Forall₂ S group.2 other.2

theorem GroupsAlike.place {grouped grouped' : List (List (Option Scalar) × List Record)}
    (h : GroupsAlike S grouped grouped') {row other : Record} (hS : S row other)
    (key : List (Option Scalar)) :
    GroupsAlike S (place key row grouped) (place key other grouped') := by
  induction h with
  | nil => exact .cons ⟨rfl, .cons hS .nil⟩ .nil
  | @cons group group' rest rest' hgroup hrest ih =>
    unfold Relation.place
    rw [hgroup.1]
    split
    · exact .cons ⟨rfl, List.rel_append hgroup.2 (.cons hS .nil)⟩ hrest
    · exact .cons ⟨rfl, hgroup.2⟩ ih

theorem groups_alike {keyed keyed' : List (List (Option Scalar) × Record)}
    (h : List.Forall₂ (fun row other => other.1 = row.1 ∧ S row.2 other.2) keyed keyed') :
    List.Forall₂ (List.Forall₂ S) (groups keyed) (groups keyed') := by
  have hfold : ∀ grouped grouped', GroupsAlike S grouped grouped' →
      GroupsAlike S (keyed.foldl (fun grouped row => place row.1 row.2 grouped) grouped)
        (keyed'.foldl (fun grouped row => place row.1 row.2 grouped) grouped') := by
    induction h with
    | nil => exact fun _ _ => id
    | cons hrow _ ih =>
      intro grouped grouped' hgrouped
      rw [List.foldl_cons, List.foldl_cons, hrow.1]
      exact ih _ _ (hgrouped.place hrow.2 _)
  unfold groups
  rw [List.forall₂_map_left_iff, List.forall₂_map_right_iff]
  exact (hfold [] [] .nil).imp fun group other hgroup => hgroup.2

theorem aggregate_present (hcolumns : ∀ column ∈ columns, column.accessor.Keeps S)
    {relation relation' : Relation} (haliases : relation'.aliases = relation.aliases)
    (h : List.Forall₂ S relation.records relation'.records) (entity : String)
    (offset : UtcOffset) :
    relation'.aggregate entity offset columns = relation.aggregate entity offset columns := by
  have hrecords (records : List Record) :
      relation'.withRecords records = relation.withRecords records := by
    rw [withRecords, withRecords, haliases]
  unfold aggregate
  split
  · have hkeyed : Carries True
        (List.Forall₂ fun row other => other.1 = row.1 ∧ S row.2 other.2)
        (relation.records.mapM fun record => do
          return (← groupKey offset columns record, record))
        (relation'.records.mapM fun record => do
          return (← groupKey offset columns record, record)) := by
      apply Carries.mapM
      refine h.imp ?_
      intro row other hS
      rw [groupKey_present hcolumns hS]
      apply (Carries.of_eq rfl).bind
      rintro key _ rfl
      exact Carries.of_ok ⟨rfl, hS⟩
    apply Carries.eq
    apply hkeyed.bind
    intro keyed keyed' hkeyed
    have hrows : (groups keyed').mapM (groupRow entity offset columns) =
        (groups keyed).mapM (groupRow entity offset columns) := by
      apply mapM_eq_of_forall₂
      exact (groups_alike hkeyed).imp fun group others hgroup =>
        groupRow_present hcolumns hgroup entity
    rw [hrows]
    apply Carries.of_eq
    simp only [hrecords]
  · rw [groupRow_present hcolumns h entity]
    simp only [hrecords]

end Relation

end RecordQuery
