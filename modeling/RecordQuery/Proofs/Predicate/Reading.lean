import RecordQuery.Proofs.Predicate.Alike
import RecordQuery.Proofs.Predicate.Renaming
import RecordQuery.Proofs.Query.Mentions

namespace RecordQuery

theorem Record.isQualified_of_sublist {name other : String} (h : name.toList.Sublist other.toList)
    (hother : isQualified other = false) : isQualified name = false := by
  unfold isQualified at hother ⊢
  rw [List.contains_eq_mem, decide_eq_false_iff_not] at hother ⊢
  exact fun hmem => hother (h.subset hmem)

namespace Catalog

variable {catalog : Catalog} {entity name base : String} {column : ResolvedColumn}

theorem referenceBase?_spec (h : catalog.referenceBase? entity name = some base) :
    catalog.attributeType? entity base = some (.ok .reference) ∧
      name.toList = base.toList ++ ['n', 'a', 'm', 'e'] := by
  simp only [referenceBase?] at h
  split at h
  · rename_i hname
    split at h
    · rename_i htype
      obtain rfl := Option.some.inj h
      refine ⟨htype, ?_⟩
      obtain ⟨front, hfront⟩ := List.isSuffixOf_iff_suffix.mp hname.1
      rw [String.toList_ofList, ← hfront]
      simp
    · contradiction
  · contradiction

theorem resolve_name (h : catalog.resolve entity name = .ok column) : column.name = name := by
  unfold resolve at h
  split at h
  · contradiction
  · split at h
    · rw [← Except.ok.inj h]
    · contradiction
    · split at h
      · rw [← Except.ok.inj h]
      · contradiction

theorem resolve_nameOf (h : catalog.resolve entity name = .ok column)
    (hsource : column.source = .nameOf base) :
    catalog.attributeType? entity base = some (.ok .reference) ∧
      name.toList = base.toList ++ ['n', 'a', 'm', 'e'] := by
  unfold resolve at h
  split at h
  · contradiction
  · split at h
    · obtain rfl := Except.ok.inj h
      contradiction
    · contradiction
    · split at h
      · rename_i other hother
        obtain rfl := Except.ok.inj h
        obtain rfl := ColumnSource.nameOf.inj hsource
        exact referenceBase?_spec hother
      · contradiction

end Catalog

namespace Predicate

section Rename

variable {f g : String → String} {record other : Record}

mutual

theorem mapKeys_mapKeys : (predicate : Predicate) →
    (predicate.mapKeys g).mapKeys f = predicate.mapKeys (f ∘ g)
  | .constant holds => rfl
  | .not inner => by
    rw [mapKeys, mapKeys, mapKeys, mapKeys_mapKeys inner]
  | .and parts => by
    rw [mapKeys, mapKeys, mapKeys, mapKeysAll_mapKeysAll parts]
  | .or parts => by
    rw [mapKeys, mapKeys, mapKeys, mapKeysAll_mapKeysAll parts]
  | .value accessor test negated sample? => by
    simp [mapKeys, Accessor.mapKeys]
  | .isNull accessor negated => by
    simp [mapKeys, Accessor.mapKeys]
  | .like accessor pattern negated => by
    simp [mapKeys, Accessor.mapKeys]
  | .columns left right comparison => by
    simp [mapKeys, Accessor.mapKeys]

theorem mapKeysAll_mapKeysAll : (parts : List Predicate) →
    mapKeysAll f (mapKeysAll g parts) = mapKeysAll (f ∘ g) parts
  | [] => rfl
  | part :: rest => by
    rw [mapKeysAll, mapKeysAll, mapKeysAll, mapKeys_mapKeys part, mapKeysAll_mapKeysAll rest]

end

mutual

theorem faults_mapKeys (h : ∀ key, record.getUnwrapped? (f key) = other.getUnwrapped? (g key)) :
    (predicate : Predicate) →
    (predicate.mapKeys f).faults record = (predicate.mapKeys g).faults other
  | .constant holds => rfl
  | .not inner => by
    simp only [mapKeys, faults, faults_mapKeys h inner]
  | .and parts => by
    simp only [mapKeys, faults]
    exact faultsInAll_mapKeys h parts
  | .or parts => by
    simp only [mapKeys, faults]
    exact faultsInAny_mapKeys h parts
  | .value accessor test negated sample? => by
    simp only [mapKeys, faults, scalarOf, Accessor.readPresent?_mapKeys h, Accessor.mapKeys_type]
  | .isNull accessor negated => rfl
  | .like accessor pattern negated => rfl
  | .columns left right comparison => rfl

theorem faultsInAll_mapKeys
    (h : ∀ key, record.getUnwrapped? (f key) = other.getUnwrapped? (g key)) :
    (parts : List Predicate) →
    faultsInAll (mapKeysAll f parts) record = faultsInAll (mapKeysAll g parts) other
  | [] => rfl
  | part :: rest => by
    simp only [mapKeysAll, faultsInAll, faults_mapKeys h part, admits_mapKeys h part,
      faultsInAll_mapKeys h rest]

theorem faultsInAny_mapKeys
    (h : ∀ key, record.getUnwrapped? (f key) = other.getUnwrapped? (g key)) :
    (parts : List Predicate) →
    faultsInAny (mapKeysAll f parts) record = faultsInAny (mapKeysAll g parts) other
  | [] => rfl
  | part :: rest => by
    simp only [mapKeysAll, faultsInAny, faults_mapKeys h part, admits_mapKeys h part,
      faultsInAny_mapKeys h rest]

end

end Rename

/-- The predicate reads no other keys: to rename others does not change it. -/
def ReadsOnly (K : String → Prop) (predicate : Predicate) : Prop :=
  ∀ f : String → String, (∀ key, K key → f key = key) → predicate.mapKeys f = predicate

namespace ReadsOnly

variable {K : String → Prop} {predicate : Predicate}

open Classical in
theorem alike {S : Record → Record → Prop} {f g : String → String} (h : predicate.ReadsOnly K)
    (least : String) (hleast : K least)
    (hS : ∀ row other, S row other → ∀ key, K key →
      row.getUnwrapped? (f key) = other.getUnwrapped? (g key)) :
    Alike S (predicate.mapKeys f) (predicate.mapKeys g) := by
  -- All keys that are not read may be taken for one that is.
  let clip : String → String := fun key => if K key then key else least
  have hclip : ∀ key, K (clip key) := by
    intro key
    by_cases hkey : K key
    · simp [clip, hkey]
    · simp [clip, hkey, hleast]
  have hfixed : predicate.mapKeys clip = predicate := h clip fun key hkey => if_pos hkey
  intro row other hrows
  have hread : ∀ key, row.getUnwrapped? ((f ∘ clip) key) = other.getUnwrapped? ((g ∘ clip) key) :=
    fun key => hS row other hrows _ (hclip key)
  rw [← hfixed, mapKeys_mapKeys, mapKeys_mapKeys]
  exact ⟨(admits_mapKeys hread predicate).symm, (faults_mapKeys hread predicate).symm⟩

theorem mapKeys_all {parts : List Predicate} (h : ∀ part ∈ parts, part.ReadsOnly K)
    {f : String → String} (hf : ∀ key, K key → f key = key) : parts.map (mapKeys f) = parts :=
  (List.map_congr_left fun part hpart => h part hpart f hf).trans (List.map_id _)

end ReadsOnly

end Predicate

section Compile

variable {context : Context} {aliases : AliasMap} {K : String → Prop}

theorem Scope.accessor_fixed {scope : Scope} {column : String} {accessor : Accessor}
    {f : String → String} (h : scope.accessor context.catalog column = .ok accessor)
    (hfixed : ∀ name : String, name.toList.Sublist column.toList →
      f (Accessor.qualifiedBy scope.alias? name) = Accessor.qualifiedBy scope.alias? name) :
    accessor.mapKeys f = accessor := by
  obtain ⟨resolved, hresolved, rfl⟩ := map_eq_ok_iff.mp h
  have hkey := hfixed resolved.name (by rw [Catalog.resolve_name hresolved])
  unfold Accessor.ofColumn Accessor.mapKeys
  dsimp only
  rw [hkey]
  cases hsource : resolved.source with
  | direct => rfl
  | nameOf base =>
    have hsublist : base.toList.Sublist column.toList := by
      rw [(Catalog.resolve_nameOf hresolved hsource).2]
      exact List.sublist_append_left _ _
    rw [Option.map_some, hfixed base hsublist]

structure Condition.Within (aliases : AliasMap) (scope : Scope) (K : String → Prop)
    (condition : Condition) : Prop where
  column : Record.isQualified condition.column = false
  own : ∀ name, Record.isQualified name = false → K (Accessor.qualifiedBy scope.alias? name)
  mentioned : ∀ aliasName ∈ condition.mentions, ∀ entity, aliases.entity aliasName = .ok entity →
    ∀ name, K (Record.qualify aliasName name)

namespace Condition

variable {scope : Scope} {condition : Condition}

theorem otherColumn_cases {other : String} {target : Scope × String}
    (h : otherColumn aliases scope other = .ok target) :
    (target = (scope, other) ∧ Record.isQualified other = false) ∨
      Record.isQualified other = true ∧
        ∃ entity, aliases.entity (String.ofList (other.toList.takeWhile (· != '.'))) = .ok entity ∧
          target.1 = .link entity (String.ofList (other.toList.takeWhile (· != '.'))) := by
  unfold otherColumn at h
  dsimp only at h
  have hrest : Record.isQualified other = true ↔ other.toList.dropWhile (· != '.') ≠ [] := by
    rw [ne_eq, List.dropWhile_eq_nil_iff]
    simp [Record.isQualified]
  split at h
  · rename_i hnone
    refine Or.inl ⟨(Except.ok.inj h).symm, ?_⟩
    rw [← Bool.not_eq_true, hrest, hnone]
    simp
  · rename_i hsome
    obtain ⟨entity, hentity, rfl⟩ := map_eq_ok_iff.mp h
    exact Or.inr ⟨hrest.mpr (by rw [hsome]; simp), entity, hentity, rfl⟩

theorem Within.target {target : Scope} (h : condition.Within aliases scope K)
    (htarget : scope.aliased aliases condition.alias? = .ok target) :
    ∀ name, Record.isQualified name = false → K (Accessor.qualifiedBy target.alias? name) := by
  cases halias : condition.alias? with
  | none =>
    rw [halias] at htarget
    obtain rfl := Except.ok.inj htarget
    exact h.own
  | some aliasName =>
    rw [halias] at htarget
    obtain ⟨entity, hentity, rfl⟩ := map_eq_ok_iff.mp htarget
    have hmem : aliasName ∈ condition.mentions := by simp [mentions, halias]
    exact fun name _ => h.mentioned aliasName hmem entity hentity name

theorem Within.other {target : Scope} {other : String} {found : Scope × String}
    (h : condition.Within aliases scope K)
    (htarget : scope.aliased aliases condition.alias? = .ok target)
    (hother : condition.other? = some other)
    (hfound : otherColumn aliases target other = .ok found) :
    ∀ name : String, name.toList.Sublist found.2.toList →
      K (Accessor.qualifiedBy found.1.alias? name) := by
  intro name hname
  rcases otherColumn_cases hfound with ⟨rfl, hplain⟩ | ⟨hqualified, entity, hentity, hlink⟩
  · exact h.target htarget name (Record.isQualified_of_sublist hname hplain)
  · have hmem : String.ofList (other.toList.takeWhile (· != '.')) ∈ condition.mentions := by
      simp [mentions, hother, hqualified]
    rw [hlink]
    exact h.mentioned _ hmem entity hentity name

theorem compile_readsOnly {predicate : Predicate} (h : condition.Within aliases scope K)
    (hcompile : condition.compile context aliases scope = .ok predicate) :
    predicate.ReadsOnly K := by
  intro f hf
  unfold compile at hcompile
  split at hcompile
  · obtain rfl := Except.ok.inj hcompile
    rfl
  · obtain ⟨target, htarget, hcompile⟩ := bind_eq_ok_iff.mp hcompile
    obtain ⟨accessor, haccessor, hcompile⟩ := bind_eq_ok_iff.mp hcompile
    have hfixed : accessor.mapKeys f = accessor := by
      apply Scope.accessor_fixed haccessor
      intro name hname
      exact hf _ (h.target htarget name (Record.isQualified_of_sublist hname h.column))
    cases hother : condition.other? with
    | some other =>
      simp only [hother, compileColumns] at hcompile
      split at hcompile
      · obtain ⟨found, hfound, hcompile⟩ := bind_eq_ok_iff.mp hcompile
        obtain ⟨right, hright, hcompile⟩ := bind_eq_ok_iff.mp hcompile
        obtain rfl := Except.ok.inj hcompile
        rw [Predicate.mapKeys, hfixed, Scope.accessor_fixed hright fun name hname =>
          hf _ (h.other htarget hother hfound name hname)]
      · contradiction
    | none =>
      simp only [hother] at hcompile
      have hmap := compileOperands_mapKeys f condition accessor context target target rfl
      rw [hfixed, hcompile] at hmap
      exact (Except.ok.inj hmap).symm

end Condition

namespace Filter

variable {scope : Scope}

theorem mapM_readsOnly {conditions : List Condition} {parts : List Predicate}
    (h : ∀ condition ∈ conditions, condition.Within aliases scope K)
    (hcompile : (conditions.mapM fun condition : Condition =>
      condition.compile context aliases scope) = .ok parts) :
    ∀ part ∈ parts, part.ReadsOnly K := by
  induction conditions generalizing parts with
  | nil =>
    obtain rfl := Except.ok.inj hcompile
    simp
  | cons condition rest ih =>
    rw [List.mapM_cons] at hcompile
    obtain ⟨first, hfirst, hcompile⟩ := bind_eq_ok_iff.mp hcompile
    obtain ⟨others, hothers, hcompile⟩ := bind_eq_ok_iff.mp hcompile
    obtain rfl := Except.ok.inj hcompile
    intro part hpart
    rcases List.mem_cons.mp hpart with rfl | hpart
    · exact Condition.compile_readsOnly (h condition List.mem_cons_self) hfirst
    · exact ih (fun other hother => h other (List.mem_cons_of_mem _ hother)) hothers part hpart

mutual

theorem compile_readsOnly : (filter : Filter) → {predicate : Predicate} →
    (∀ condition ∈ filter.conditionsWithin, condition.Within aliases scope K) →
    filter.compile context aliases scope = .ok predicate → predicate.ReadsOnly K
  | ⟨connective, conditions, filters⟩, predicate, h, hcompile => by
    simp only [conditionsWithin, List.mem_append] at h
    unfold compile at hcompile
    obtain ⟨own, hown, hcompile⟩ := bind_eq_ok_iff.mp hcompile
    obtain ⟨inner, hinner, hcompile⟩ := bind_eq_ok_iff.mp hcompile
    obtain rfl := Except.ok.inj hcompile
    have hown := mapM_readsOnly (fun condition hc => h condition (Or.inl hc)) hown
    have hinner := compileAll_readsOnly filters (fun condition hc => h condition (Or.inr hc)) hinner
    intro f hf
    rw [← combine_mapKeys, Predicate.ReadsOnly.mapKeys_all _ hf]
    intro part hpart
    rcases List.mem_append.mp hpart with hpart | hpart
    · exact hown part hpart
    · exact hinner part hpart

theorem compileAll_readsOnly : (filters : List Filter) → {parts : List Predicate} →
    (∀ condition ∈ conditionsWithinAll filters, condition.Within aliases scope K) →
    compileAll context aliases scope filters = .ok parts → ∀ part ∈ parts, part.ReadsOnly K
  | [], parts, _, hcompile => by
    unfold compileAll at hcompile
    obtain rfl := Except.ok.inj hcompile
    simp
  | filter :: rest, parts, h, hcompile => by
    simp only [conditionsWithinAll, List.mem_append] at h
    unfold compileAll at hcompile
    obtain ⟨first, hfirst, hcompile⟩ := bind_eq_ok_iff.mp hcompile
    obtain ⟨others, hothers, hcompile⟩ := bind_eq_ok_iff.mp hcompile
    obtain rfl := Except.ok.inj hcompile
    intro part hpart
    rcases List.mem_cons.mp hpart with rfl | hpart
    · exact compile_readsOnly filter (fun condition hc => h condition (Or.inl hc)) hfirst
    · exact compileAll_readsOnly rest (fun condition hc => h condition (Or.inr hc)) hothers part
        hpart

end

end Filter

end Compile

end RecordQuery
