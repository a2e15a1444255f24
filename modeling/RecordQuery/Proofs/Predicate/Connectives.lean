import RecordQuery.Predicate.Basic

namespace RecordQuery.Predicate

@[simp] theorem allAdmit_eq_all (parts : List Predicate) (record : Record) :
    allAdmit parts record = parts.all (·.admits record) := by
  induction parts with
  | nil => rfl
  | cons part rest ih => rw [allAdmit, List.all_cons, ih]

@[simp] theorem anyAdmits_eq_any (parts : List Predicate) (record : Record) :
    anyAdmits parts record = parts.any (·.admits record) := by
  induction parts with
  | nil => rfl
  | cons part rest ih => rw [anyAdmits, List.any_cons, ih]

theorem admits_of_isTrue {predicate : Predicate} (h : predicate.isTrue = true) (record : Record) :
    predicate.admits record = true := by
  cases predicate with
  | constant holds =>
    cases holds with
    | true => rfl
    | false => contradiction
  | _ => contradiction

theorem all_filter_not_isTrue (parts : List Predicate) (record : Record) :
    (parts.filter fun part => !part.isTrue).all (·.admits record) =
      parts.all (·.admits record) := by
  induction parts with
  | nil => rfl
  | cons part rest ih =>
    cases htrue : part.isTrue with
    | true => simp [htrue, ih, admits_of_isTrue htrue record]
    | false => simp [htrue, ih]

theorem admits_conjunction (parts : List Predicate) (record : Record) :
    (conjunction parts).admits record = parts.all (·.admits record) := by
  rw [← all_filter_not_isTrue]
  unfold conjunction
  split
  · rename_i hnone
    rw [hnone]
    rfl
  · rename_i part hone
    simp [hone]
  · simp [admits]

end RecordQuery.Predicate
