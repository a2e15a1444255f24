import RecordQuery.Proofs.Predicate.OtherStore
import RecordQuery.Proofs.Predicate.Presence
import RecordQuery.Proofs.Relation.Finding
import RecordQuery.Proofs.Relation.Linking

namespace RecordQuery

open PlannedLink
open Record (qualify isQualified)

def Blank (value? : Option Value) : Prop := ∀ value, value? = some value → value.unwrap = .null

namespace Blank

variable {value? : Option Value}

theorem none : Blank none := fun _ h => nomatch h

theorem some {value : Value} (h : value.unwrap = .null) : Blank (some value) := by
  rintro _ ⟨⟩
  exact h

theorem aliased {aliasName name : String} : Blank value? →
    Blank (match value? with
      | .some value => .some (.aliased aliasName name value.unwrap)
      | .none => .none) := by
  intro h
  cases value? with
  | none => exact none
  | some value =>
    apply Blank.some
    rw [Value.unwrap, Value.unwrap_unwrap, h value rfl]

theorem bind {β : Type} {f : Value → Option β} (h : Blank value?) (hf : f .null = .none)
    (hunwrap : ∀ value : Value, f value = f value.unwrap) : value?.bind f = .none := by
  cases value? with
  | none => rfl
  | some value => rw [Option.bind_some, hunwrap, h value rfl, hf]

end Blank

theorem Record.getUnwrapped?_of_blank {record : Record} {key : String}
    (h : Blank (record.get? key)) :
    record.getUnwrapped? key = none ∨ record.getUnwrapped? key = some .null := by
  unfold getUnwrapped?
  cases hvalue : record.get? key with
  | none => exact Or.inl rfl
  | some value => exact Or.inr (congrArg some (h value hvalue))

namespace Record

def Reserved (names : List String) (key : String) : Prop :=
  ∃ aliasName ∈ names, ∃ name, isQualified name = false ∧ key = qualify aliasName name

theorem Reserved.mono {names others : List String} {key : String} (h : Reserved names key)
    (hsubset : names ⊆ others) : Reserved others key := by
  obtain ⟨aliasName, hmem, hname⟩ := h
  exact ⟨aliasName, hsubset hmem, hname⟩

theorem get?_merge_of_not_reserved {aliasName key : String} (record target : Record)
    (h : ¬ Reserved [aliasName] key) :
    (record.merge aliasName target).get? key = record.get? key := by
  by_cases hkey : ∃ name, key = qualify aliasName name
  · obtain ⟨name, rfl⟩ := hkey
    have hname : isQualified name = true := by
      by_contra hnot
      exact h ⟨aliasName, List.mem_cons_self, name, Bool.eq_false_of_not_eq_true hnot, rfl⟩
    rw [get?_merge_qualify, hname, if_pos rfl]
  · exact get?_merge_of_ne aliasName record target key (not_exists.mp hkey)

theorem not_reserved_of_fresh {aliasName key : String} {names : List String}
    (h : Reserved names key) (hfresh : aliasName ∉ names) : ¬ Reserved [aliasName] key := by
  rintro ⟨other, hother, name, hname, rfl⟩
  obtain rfl := List.mem_singleton.mp hother
  obtain ⟨taken, htaken, inner, hinner, heq⟩ := h
  exact hfresh ((qualify_injective hname hinner heq).1 ▸ htaken)

/-- The same record, but for attributes that may be null: where one of the two holds null, the other
may hold nothing. -/
structure Twin (K : String → Prop) (row other : Record) : Prop where
  identity : other.identity = row.identity
  held : ∀ key, other.get? key = row.get? key ∨
    K key ∧ Blank (row.get? key) ∧ Blank (other.get? key)

namespace Twin

variable {K : String → Prop} {row other : Record}

theorem refl (K : String → Prop) (row : Record) : Twin K row row :=
  ⟨rfl, fun _ => Or.inl rfl⟩

theorem set_null {name : String} (hname : K name) (h : row.get? name = none) :
    Twin K row (row.set name .null) where
  identity := rfl
  held key := by
    by_cases hkey : key = name
    · subst hkey
      rw [h, get?_set, if_pos rfl]
      exact Or.inr ⟨hname, Blank.none, Blank.some rfl⟩
    · rw [get?_set, if_neg hkey]
      exact Or.inl rfl

theorem getUnwrapped?_of_not_null (h : Twin K row other) {key : String} {value : Value}
    (hvalue : row.getUnwrapped? key = some value) (hnull : value ≠ .null) :
    other.getUnwrapped? key = some value := by
  rcases h.held key with heq | ⟨-, hblank, -⟩
  · rwa [getUnwrapped?, heq]
  · rcases getUnwrapped?_of_blank hblank with hnone | hblank
    · rw [hnone] at hvalue
      contradiction
    · rw [hblank] at hvalue
      exact absurd (Option.some.inj hvalue).symm hnull

theorem keyAt? (h : Twin K row other) (key : String) : other.keyAt? key = row.keyAt? key := by
  unfold Record.keyAt?
  rcases h.held key with heq | ⟨-, hrow, hother⟩
  · rw [heq]
  · rw [hrow.bind rfl fun value => (Value.key?_unwrap value).symm,
      hother.bind rfl fun value => (Value.key?_unwrap value).symm]

theorem readsAlike (h : Twin K row other) {accessor : Accessor}
    (hsafe : accessor.referenceKey? = none ∨ ¬ K accessor.key) :
    accessor.ReadsAlike row other := by
  have hboth (hrow : accessor.read? row = none ∨ accessor.read? row = some .null)
      (hother : accessor.read? other = none ∨ accessor.read? other = some .null) :
      accessor.ReadsAlike row other :=
    (Accessor.readPresent?_eq_none_iff.mpr hother).trans
      (Accessor.readPresent?_eq_none_iff.mpr hrow).symm
  have hsame (heq : accessor.read? other = accessor.read? row) : accessor.ReadsAlike row other := by
    rw [Accessor.ReadsAlike, Accessor.readPresent?, heq, Accessor.readPresent?]
  rw [accessor.read?_eq, accessor.read?_eq] at hsame hboth
  rcases h.held accessor.key with heq | ⟨hkey, hrow, hother⟩
  · have hkeys : other.getUnwrapped? accessor.key = row.getUnwrapped? accessor.key :=
      congrArg (Option.map Value.unwrap) heq
    rw [hkeys] at hsame hboth
    cases hvalue : row.getUnwrapped? accessor.key with
    | some value => exact hsame (by rw [hvalue, Option.some_or, Option.some_or])
    | none =>
      -- Nothing is held under the key of the column: the reference beside it counts.
      rw [hvalue, Option.none_or, Option.none_or] at hsame hboth
      unfold Accessor.base? at hsame hboth
      cases hbase : accessor.referenceKey? with
      | none => exact hsame (by rw [hbase]; rfl)
      | some base =>
        rw [hbase, Option.bind_some, Option.bind_some] at hsame hboth
        rcases h.held base with heq | ⟨-, hrow, hother⟩
        · exact hsame (by rw [getUnwrapped?, heq, getUnwrapped?])
        · apply hboth
          · exact (getUnwrapped?_of_blank hrow).imp (by rw [·]; rfl) (by rw [·]; rfl)
          · exact (getUnwrapped?_of_blank hother).imp (by rw [·]; rfl) (by rw [·]; rfl)
  · have hplain := hsafe.resolve_right fun hnot => hnot hkey
    unfold Accessor.base? at hboth
    simp only [hplain, Option.bind_none, Option.or_none] at hboth
    exact hboth (getUnwrapped?_of_blank hrow) (getUnwrapped?_of_blank hother)

end Twin

structure OpenTwin (K : String → Prop) (fresh : List String) (row other : Record) : Prop
    extends Twin K row other where
  fresh : ∀ key, Reserved fresh key → row.get? key = none ∧ other.get? key = none

namespace OpenTwin

variable {K : String → Prop} {fresh : List String} {row other : Record}

theorem mono {names : List String} (h : OpenTwin K fresh row other) (hnames : names ⊆ fresh) :
    OpenTwin K names row other where
  toTwin := h.toTwin
  fresh key hkey := h.fresh key (hkey.mono hnames)

theorem merge {L : String → Prop} {aliasName : String} {names : List String}
    {target target' : Record} (h : OpenTwin K fresh row other) (htarget : Twin L target target')
    (hfresh : aliasName :: names ⊆ fresh) (hnew : aliasName ∉ names)
    (hL : ∀ name, isQualified name = false → L name → K (qualify aliasName name)) :
    OpenTwin K names (row.merge aliasName target) (other.merge aliasName target') := by
  constructor
  · constructor
    · rw [identity_merge, identity_merge, h.identity]
    · intro key
      by_cases hkey : Reserved [aliasName] key
      · obtain ⟨hrow, hother⟩ := h.fresh key (hkey.mono fun _ hmem =>
          hfresh (List.mem_singleton.mp hmem ▸ List.mem_cons_self))
        obtain ⟨_, hmem, name, hname, rfl⟩ := hkey
        obtain rfl := List.mem_singleton.mp hmem
        rw [get?_merge_qualify, get?_merge_qualify, hname, if_neg Bool.false_ne_true,
          if_neg Bool.false_ne_true, hrow, hother]
        rcases htarget.held name with heq | ⟨hnull, hblank, hblank'⟩
        · exact Or.inl (by rw [heq])
        · exact Or.inr ⟨hL name hname hnull, Blank.aliased hblank, Blank.aliased hblank'⟩
      · rw [get?_merge_of_not_reserved _ _ hkey, get?_merge_of_not_reserved _ _ hkey]
        exact h.held key
  · intro key hkey
    have hnot := not_reserved_of_fresh hkey hnew
    rw [get?_merge_of_not_reserved _ _ hnot, get?_merge_of_not_reserved _ _ hnot]
    exact h.fresh key (hkey.mono fun _ hmem => hfresh (List.mem_cons_of_mem _ hmem))

end OpenTwin

end Record

namespace Relation

open Record (Twin OpenTwin)

variable {K L : String → Prop} {fresh others names : List String} {aliasName : String}
variable {left left' right right' : Relation} {leftColumn rightColumn : String}

theorem linksAlike_twins :
    LinksAlike (OpenTwin K fresh) (OpenTwin L others) leftColumn leftColumn rightColumn := by
  intro row other hrow target target' htarget
  unfold Record.linksTo
  rw [hrow.keyAt?, htarget.keyAt?]

theorem Alike.join_twins (h : Alike (OpenTwin K fresh) left left')
    (hright : Alike (OpenTwin L others) right right') (outer : Bool)
    (hfresh : aliasName :: names ⊆ fresh) (hnew : aliasName ∉ names)
    (hL : ∀ name, isQualified name = false → L name → K (qualify aliasName name)) :
    Alike (OpenTwin K names) (left.join right leftColumn rightColumn aliasName outer)
      (left'.join right' leftColumn rightColumn aliasName outer) := by
  apply h.join hright outer linksAlike_twins
  · exact fun row other hrow => hrow.mono fun _ hmem => hfresh (List.mem_cons_of_mem _ hmem)
  · exact fun row other hrow target target' htarget => hrow.merge htarget.toTwin hfresh hnew hL

end Relation

end RecordQuery
