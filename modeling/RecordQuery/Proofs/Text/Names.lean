import RecordQuery.Catalog.Schema

namespace RecordQuery

def IsName (name : String) : Prop :=
  ∃ first rest, name.toList = first :: rest ∧ isNameStart first = true ∧
    ∀ c ∈ rest, isNameChar c = true

theorem isName_iff {name : String} {first : Char} {rest : List Char}
    (h : name.toList = first :: rest) :
    IsName name ↔ isNameStart first = true ∧ rest.all isNameChar = true := by
  rw [IsName, h, List.all_eq_true]
  constructor
  · rintro ⟨_, _, heq, hname⟩
    obtain ⟨rfl, rfl⟩ := List.cons.inj heq
    exact hname
  · exact fun hname => ⟨first, rest, rfl, hname⟩

theorem not_isName_of_nil {name : String} (h : name.toList = []) : ¬ IsName name := by
  rintro ⟨first, rest, hname, -⟩
  rw [h] at hname
  contradiction

theorem Aliases.isValid_iff (name : String) : isValid name = true ↔ IsName name := by
  unfold isValid
  cases hname : name.toList with
  | nil => simp [not_isName_of_nil hname]
  | cons first rest => simp [isName_iff hname]

theorem SchemaBuilder.checkName_eq_ok_iff (name : String) :
    checkName name = .ok () ↔ IsName name := by
  unfold checkName
  cases hname : name.toList with
  | nil => simp [not_isName_of_nil hname]
  | cons first rest =>
    simp only [isName_iff hname]
    by_cases hstart : isNameStart first = true
    · by_cases hrest : rest.all isNameChar = true <;> simp_all
    · simp [hstart]

theorem IsName.append {name others : String} (h : IsName name)
    (hothers : ∀ c ∈ others.toList, isNameChar c = true) : IsName (name ++ others) := by
  obtain ⟨first, rest, hname, hstart, hrest⟩ := h
  refine ⟨first, rest ++ others.toList, by rw [String.toList_append, hname, List.cons_append],
    hstart, fun c hc => ?_⟩
  rcases List.mem_append.mp hc with hc | hc
  · exact hrest c hc
  · exact hothers c hc

end RecordQuery
