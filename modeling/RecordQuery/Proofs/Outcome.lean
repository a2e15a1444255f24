import RecordQuery.Error

namespace RecordQuery

universe u v

variable {α β : Type u}

@[simp] theorem pure_eq_ok (a : α) : (pure a : Except Error α) = .ok a := rfl

@[simp] theorem throw_eq_error (fault : Error) : (throw fault : Except Error α) = .error fault := rfl

@[simp] theorem ok_bind (a : α) (next : α → Except Error β) :
    (Except.ok a >>= next) = next a := rfl

@[simp] theorem error_bind (fault : Error) (next : α → Except Error β) :
    ((Except.error fault : Except Error α) >>= next) = .error fault := rfl

theorem bind_eq_ok_iff {answer : Except Error α} {next : α → Except Error β} {b : β} :
    (answer >>= next) = .ok b ↔ ∃ a, answer = .ok a ∧ next a = .ok b := by
  cases answer with
  | ok a => simp
  | error fault => simp

theorem seq_eq_ok_iff {first : Except Error PUnit} {next : Except Error β} {b : β} :
    (first >>= fun _ => next) = .ok b ↔ first = .ok ⟨⟩ ∧ next = .ok b := by
  cases first with
  | ok => simp
  | error fault => simp

theorem bind_eq_error_iff {answer : Except Error α} {next : α → Except Error β} {fault : Error} :
    (answer >>= next) = .error fault ↔
      answer = .error fault ∨ ∃ a, answer = .ok a ∧ next a = .error fault := by
  cases answer with
  | ok a => simp
  | error other => simp

theorem bind_map {γ : Type u} (answer : Except Error α) (next : α → Except Error β) (f : β → γ) :
    (answer >>= next).map f = answer >>= fun a => (next a).map f := by
  cases answer <;> rfl

theorem map_eq_ok_iff {α β : Type v} {answer : Except Error α} {f : α → β} {b : β} :
    answer.map f = .ok b ↔ ∃ a, answer = .ok a ∧ f a = b := by
  cases answer with
  | ok a => simp [Except.map]
  | error fault => simp [Except.map]

theorem map_eq_error_iff {α β : Type v} {answer : Except Error α} {f : α → β} {fault : Error} :
    answer.map f = .error fault ↔ answer = .error fault := by
  cases answer with
  | ok a => simp [Except.map]
  | error other => simp [Except.map]

theorem exists_of_mapM_eq_ok {f : α → Except Error β} {items : List α} {results : List β} {item : α}
    (h : items.mapM f = .ok results) (hitem : item ∈ items) : ∃ b ∈ results, f item = .ok b := by
  induction items generalizing results with
  | nil => contradiction
  | cons first rest ih =>
    rw [List.mapM_cons] at h
    obtain ⟨b, hb, h⟩ := bind_eq_ok_iff.mp h
    obtain ⟨bs, hbs, h⟩ := bind_eq_ok_iff.mp h
    obtain rfl := Except.ok.inj h
    rcases List.mem_cons.mp hitem with rfl | hitem
    · exact ⟨b, List.mem_cons_self, hb⟩
    · obtain ⟨other, hmem, hother⟩ := ih hbs hitem
      exact ⟨other, List.mem_cons_of_mem b hmem, hother⟩

theorem exists_of_mem_mapM {f : α → Except Error β} {items : List α} {results : List β} {b : β}
    (h : items.mapM f = .ok results) (hb : b ∈ results) : ∃ item ∈ items, f item = .ok b := by
  induction items generalizing results with
  | nil =>
    obtain rfl := Except.ok.inj h
    contradiction
  | cons first rest ih =>
    rw [List.mapM_cons] at h
    obtain ⟨found, hfound, h⟩ := bind_eq_ok_iff.mp h
    obtain ⟨others, hothers, h⟩ := bind_eq_ok_iff.mp h
    obtain rfl := Except.ok.inj h
    rcases List.mem_cons.mp hb with rfl | hb
    · exact ⟨first, List.mem_cons_self, hfound⟩
    · obtain ⟨item, hmem, hitem⟩ := ih hothers hb
      exact ⟨item, List.mem_cons_of_mem first hmem, hitem⟩

theorem length_of_mapM_eq_ok {f : α → Except Error β} {items : List α} {results : List β}
    (h : items.mapM f = .ok results) : results.length = items.length := by
  induction items generalizing results with
  | nil =>
    obtain rfl := Except.ok.inj h
    rfl
  | cons first rest ih =>
    rw [List.mapM_cons] at h
    obtain ⟨b, -, h⟩ := bind_eq_ok_iff.mp h
    obtain ⟨bs, hbs, h⟩ := bind_eq_ok_iff.mp h
    obtain rfl := Except.ok.inj h
    rw [List.length_cons, List.length_cons, ih hbs]

theorem getElem?_of_mapM_eq_ok {f : α → Except Error β} {items : List α} {results : List β}
    (h : items.mapM f = .ok results) {i : Nat} {b : β} (hb : results[i]? = some b) :
    ∃ item, items[i]? = some item ∧ f item = .ok b := by
  induction items generalizing results i with
  | nil =>
    obtain rfl := Except.ok.inj h
    contradiction
  | cons first rest ih =>
    rw [List.mapM_cons] at h
    obtain ⟨found, hfound, h⟩ := bind_eq_ok_iff.mp h
    obtain ⟨others, hothers, h⟩ := bind_eq_ok_iff.mp h
    obtain rfl := Except.ok.inj h
    cases i with
    | zero =>
      obtain rfl := Option.some.inj hb
      exact ⟨first, rfl, hfound⟩
    | succ i => exact ih hothers hb

theorem mapM_append_cons {f : α → Except Error β} {before after : List α} {item : α}
    {results : List β} (h : (before ++ item :: after).mapM f = .ok results) :
    ∃ first b last, results = first ++ b :: last ∧ f item = .ok b ∧
      (before ++ after).mapM f = .ok (first ++ last) := by
  rw [List.mapM_append, List.mapM_cons] at h
  obtain ⟨first, hfirst, h⟩ := bind_eq_ok_iff.mp h
  obtain ⟨others, hothers, h⟩ := bind_eq_ok_iff.mp h
  obtain rfl := Except.ok.inj h
  obtain ⟨b, hb, hothers⟩ := bind_eq_ok_iff.mp hothers
  obtain ⟨last, hlast, hothers⟩ := bind_eq_ok_iff.mp hothers
  obtain rfl := Except.ok.inj hothers
  refine ⟨first, b, last, rfl, hb, ?_⟩
  rw [List.mapM_append, hfirst, hlast]
  rfl

theorem exists_of_mapM_eq_error {f : α → Except Error β} {items : List α} {fault : Error}
    (h : items.mapM f = .error fault) : ∃ item ∈ items, f item = .error fault := by
  induction items with
  | nil => contradiction
  | cons item rest ih =>
    rw [List.mapM_cons, bind_eq_error_iff] at h
    rcases h with h | ⟨b, -, h⟩
    · exact ⟨item, List.mem_cons_self, h⟩
    · rcases bind_eq_error_iff.mp h with h | ⟨bs, -, h⟩
      · obtain ⟨other, hmem, hother⟩ := ih h
        exact ⟨other, List.mem_cons_of_mem item hmem, hother⟩
      · contradiction

/-- The step fails for one of the reasons, and has an answer where there is none. -/
def FailsFor (answer : Except Error α) (reasons : Error → Prop) : Prop :=
  match answer with
  | .ok _ => ∀ fault, ¬ reasons fault
  | .error fault => reasons fault

namespace FailsFor

variable {answer : Except Error α} {reasons others : Error → Prop}

theorem of_ok (h : ∃ a, answer = .ok a) : FailsFor answer fun _ => False := by
  obtain ⟨a, rfl⟩ := h
  exact fun _ => id

theorem of_error {fault : Error} (h : answer = .error fault) (hfault : reasons fault) :
    FailsFor answer reasons := by
  subst h
  exact hfault

theorem congr (h : FailsFor answer reasons) (hiff : ∀ fault, reasons fault ↔ others fault) :
    FailsFor answer others := by
  cases answer with
  | ok a => exact fun fault hfault => h fault ((hiff fault).mpr hfault)
  | error fault => exact (hiff fault).mp h

theorem bind {next : α → Except Error β} (h : FailsFor answer reasons)
    (hnext : ∀ a, answer = .ok a → FailsFor (next a) others) :
    FailsFor (answer >>= next) fun fault => reasons fault ∨ others fault := by
  cases answer with
  | error fault => exact .inl h
  | ok a =>
    have hafter := hnext a rfl
    rw [ok_bind]
    cases hanswer : next a with
    | error fault =>
      rw [hanswer] at hafter
      exact .inr hafter
    | ok b =>
      rw [hanswer] at hafter
      intro fault hfault
      exact hfault.elim (h fault) (hafter fault)

theorem mapM {f : α → Except Error β} {items : List α} {reasons : α → Error → Prop}
    (h : ∀ item ∈ items, FailsFor (f item) (reasons item)) :
    FailsFor (items.mapM f) fun fault => ∃ item ∈ items, reasons item fault := by
  induction items with
  | nil => exact fun _ hfault => by simp at hfault
  | cons item rest ih =>
    rw [List.mapM_cons]
    have hrest := ih fun other hother => h other (List.mem_cons_of_mem _ hother)
    refine ((h item List.mem_cons_self).bind fun _ _ => hrest.bind fun _ _ =>
      of_ok ⟨_, rfl⟩).congr fun fault => ?_
    simp

theorem filterMapM {f : α → Except Error (Option β)} {items : List α} {reasons : α → Error → Prop}
    (h : ∀ item ∈ items, FailsFor (f item) (reasons item)) :
    FailsFor (items.filterMapM f) fun fault => ∃ item ∈ items, reasons item fault := by
  induction items with
  | nil => exact fun _ hfault => by simp at hfault
  | cons item rest ih =>
    rw [List.filterMapM_cons]
    have hrest := ih fun other hother => h other (List.mem_cons_of_mem _ hother)
    have hnext : ∀ found? : Option β, FailsFor
        (match found? with
          | none => rest.filterMapM f
          | some b => do return b :: (← rest.filterMapM f))
        fun fault => ∃ other ∈ rest, reasons other fault := by
      intro found?
      cases found? with
      | none => exact hrest
      | some b => exact (hrest.bind fun _ _ => of_ok ⟨_, rfl⟩).congr fun fault => by simp
    refine ((h item List.mem_cons_self).bind fun found? _ => hnext found?).congr fun fault => ?_
    simp

theorem foldlM {f : β → α → Except Error β} {items : List α} {reasons : α → Error → Prop}
    (h : ∀ b, ∀ item ∈ items, FailsFor (f b item) (reasons item)) (b : β) :
    FailsFor (items.foldlM f b) fun fault => ∃ item ∈ items, reasons item fault := by
  induction items generalizing b with
  | nil => exact fun _ hfault => by simp at hfault
  | cons item rest ih =>
    rw [List.foldlM_cons]
    have hrest := ih fun b other hother => h b other (List.mem_cons_of_mem _ hother)
    refine ((h b item List.mem_cons_self).bind fun next _ => hrest next).congr fun fault => ?_
    simp

end FailsFor

end RecordQuery
