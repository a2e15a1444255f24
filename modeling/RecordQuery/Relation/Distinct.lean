import RecordQuery.Relation.Basic

namespace RecordQuery.Relation

def firsts {α : Type} (same : α → α → Bool) : List α → List α
  | [] => []
  | item :: rest => item :: (firsts same rest).filter fun other => !same item other

theorem firsts_sublist {α : Type} (same : α → α → Bool) (items : List α) :
    (firsts same items).Sublist items := by
  induction items with
  | nil => exact .slnil
  | cons item rest ih => exact (List.filter_sublist.trans ih).cons_cons item

def distinct (relation : Relation) : Relation :=
  relation.withRecords (firsts (fun a b => a.attributes.same b.attributes) relation.records)

end RecordQuery.Relation
