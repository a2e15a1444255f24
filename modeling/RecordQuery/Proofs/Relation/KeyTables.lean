import RecordQuery.Proofs.Value.Keys
import RecordQuery.Relation.Join

/-!
Tables of rows by their keys. A row finds there the rows that are linked to it, in the order in
which they were added, so that a join by a table is a loop over all pairs of rows.
-/

namespace RecordQuery

def Record.linksTo (left right : Record) (leftColumn rightColumn : String) : Bool :=
  match left.keyAt? leftColumn, right.keyAt? rightColumn with
  | some a, some b => a.sameKey b
  | _, _ => false

namespace Relation

def linked (right : List Record) (leftColumn rightColumn : String) (left : Record) : List Record :=
  right.filter fun record => left.linksTo record leftColumn rightColumn

def joinRow (right : List Record) (leftColumn rightColumn aliasName : String) (outer : Bool)
    (left : Record) : List Record :=
  match linked right leftColumn rightColumn left with
  | [] => if outer then [left] else []
  | matches_ => matches_.map (left.merge aliasName)

end Relation

namespace KeyTable

def hasKey (column : String) (key : Scalar) (row : Record) : Bool :=
  (row.keyAt? column).any key.sameKey

structure Lists (table : KeyTable) (column : String) (rows : List Record) : Prop where
  group : ∀ key, (table.group? key).getD [] = rows.filter (hasKey column key)
  nonempty : ∀ key, table.group? key ≠ some []

theorem group?_add (table : KeyTable) (key sought : Scalar) (row : Record) :
    (table.add key row).group? sought =
      if key.sameKey sought then some ((table.group? sought).getD [] ++ [row])
      else table.group? sought := by
  induction table with
  | nil => rfl
  | cons first rest ih =>
    obtain ⟨other, rows⟩ := first
    unfold add
    -- A group keeps the key of its first row, which may be written otherwise than the one sought.
    by_cases hother : other.sameKey key
    · have hsame : other.sameKey sought = key.sameKey sought := by
        rw [Bool.eq_iff_iff, Scalar.sameKey_iff, Scalar.sameKey_iff,
          (Scalar.sameKey_iff other key).mp hother]
      rw [if_pos hother]
      unfold group?
      rw [hsame]
      split <;> rfl
    · rw [if_neg hother]
      unfold group?
      rw [ih]
      by_cases hsought : other.sameKey sought
      · have hkey : ¬ key.sameKey sought := by
          intro hkey
          rw [Scalar.sameKey_iff] at hother hsought hkey
          exact hother (hsought.trans hkey.symm)
        rw [if_pos hsought, if_pos hsought, if_neg hkey]
      · rw [if_neg hsought, if_neg hsought]

theorem Lists.empty (column : String) : Lists empty column [] :=
  ⟨fun _ => rfl, fun _ => Option.some_ne_none _ ∘ Eq.symm⟩

variable {table : KeyTable} {column : String} {rows : List Record}

theorem Lists.addRow (h : Lists table column rows) (row : Record) :
    Lists (addRow column table row) column (rows ++ [row]) := by
  unfold KeyTable.addRow
  cases hkey : row.keyAt? column with
  | none =>
    have hrow : ∀ key, hasKey column key row = false := by simp [hasKey, hkey]
    exact ⟨fun key => by simp [hrow, h.group], h.nonempty⟩
  | some key =>
    -- The key of the row is that of the group, not the other way around as in `hasKey`.
    have hrow : ∀ sought, hasKey column sought row = key.sameKey sought := by
      intro sought
      rw [hasKey, hkey, Option.any_some, Bool.eq_iff_iff, Scalar.sameKey_iff, Scalar.sameKey_iff,
        eq_comm]
    constructor
    · intro sought
      rw [group?_add, List.filter_append, List.filter_cons, hrow, ← h.group]
      cases key.sameKey sought <;> simp
    · intro sought
      rw [group?_add]
      split
      · simp
      · exact h.nonempty sought

theorem Lists.foldl (h : Lists table column rows) (records : List Record) :
    Lists (records.foldl (KeyTable.addRow column) table) column (rows ++ records) := by
  induction records generalizing table rows with
  | nil => rwa [List.append_nil]
  | cons row rest ih =>
    rw [List.foldl_cons, List.append_cons]
    exact ih (h.addRow row)

theorem lists_ofRecords (column : String) (records : List Record) :
    Lists (ofRecords column records) column records :=
  (Lists.empty column).foldl records

theorem linked_eq (right : List Record) (leftColumn rightColumn : String) (row : Record) :
    Relation.linked right leftColumn rightColumn row =
      ((row.keyAt? leftColumn).map fun key => right.filter (hasKey rightColumn key)).getD [] := by
  unfold Relation.linked Record.linksTo hasKey
  cases row.keyAt? leftColumn with
  | none => exact List.filter_eq_nil_iff.mpr fun _ _ => Bool.false_ne_true
  | some key =>
    rw [Option.map_some, Option.getD_some]
    apply List.filter_congr
    intro record _
    cases record.keyAt? rightColumn <;> rfl

theorem linked?_ofRecords (right : List Record) (leftColumn rightColumn : String) (row : Record) :
    (ofRecords rightColumn right).linked? leftColumn row =
      match Relation.linked right leftColumn rightColumn row with
      | [] => none
      | found => some found := by
  rw [linked_eq, linked?]
  cases row.keyAt? leftColumn with
  | none => rfl
  | some key =>
    have h := lists_ofRecords rightColumn right
    rw [Option.bind_some, Option.map_some, Option.getD_some, ← h.group]
    cases hfound : (ofRecords rightColumn right).group? key with
    | none => rfl
    | some found =>
      cases found with
      | nil => exact absurd hfound (h.nonempty key)
      | cons first rest => rfl

end KeyTable

namespace Relation

theorem mergeLinked_eq (right : List Record) (leftColumn rightColumn aliasName : String)
    (outer : Bool) :
    mergeLinked (.ofRecords rightColumn right) leftColumn aliasName outer =
      joinRow right leftColumn rightColumn aliasName outer := by
  funext row
  rw [mergeLinked, KeyTable.linked?_ofRecords, joinRow]
  cases linked right leftColumn rightColumn row <;> rfl

theorem join_eq (left right : Relation) (leftColumn rightColumn aliasName : String)
    (outer : Bool) :
    left.join right leftColumn rightColumn aliasName outer =
      ⟨left.records.flatMap (joinRow right.records leftColumn rightColumn aliasName outer),
        left.aliases ++ [aliasName]⟩ := by
  rw [join, mergeLinked_eq]

theorem existsJoin_eq (left right : Relation) (kind : JoinKind) (leftColumn rightColumn : String)
    (predicate : Predicate) :
    left.existsJoin right kind leftColumn rightColumn predicate =
      if left.records.any fun row =>
        keepFaults kind predicate (linked right.records leftColumn rightColumn row) then
        .error .overflow
      else
        .ok (left.withRecords (left.records.filter fun row =>
          keeps kind predicate (linked right.records leftColumn rightColumn row))) := by
  have hrow : ∀ row : Record,
      ((KeyTable.ofRecords rightColumn right.records).linked? leftColumn row).getD [] =
      linked right.records leftColumn rightColumn row := by
    intro row
    rw [KeyTable.linked?_ofRecords]
    cases linked right.records leftColumn rightColumn row <;> rfl
  simp only [existsJoin, hrow]

end Relation

end RecordQuery
