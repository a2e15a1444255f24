import RecordQuery.Proofs.Predicate.OtherStore
import RecordQuery.Proofs.Relation.Rerun
import RecordQuery.Proofs.Relation.Twins

/-!
Stores that differ only in declared attributes which hold null in the one and nothing in the other.
Their records are scanned to twins, hierarchies are the same in both, and so are compiled filters. A
column that a filter reads tells no twins apart, if the names of reference columns have no points.
-/

namespace RecordQuery

open Record (Twin OpenTwin Reserved qualify isQualified)

def Catalog.Declares (catalog : Catalog) (entity name : String) : Prop :=
  (∃ column, catalog.resolve entity name = .ok column ∧ column.source = .direct) ∧
    catalog.primaryId entity ≠ .ok name

theorem Catalog.declares_of_resolve {catalog : Catalog} {entity name primaryId : String}
    {column : ResolvedColumn} (h : catalog.resolve entity name = .ok column)
    (hsource : column.source = .direct) (hid : catalog.primaryId entity = .ok primaryId)
    (hne : primaryId ≠ name) : catalog.Declares entity name :=
  ⟨⟨column, h, hsource⟩, fun hname => hne (Except.ok.inj (hid.symm.trans hname))⟩

/-- The same records in the same order, but for declared attributes: where a record of one of the
stores holds null, that of the other may hold nothing. -/
def Store.Twin (catalog : Catalog) (store other : Store) : Prop :=
  List.Forall₂ (fun row twin => Record.Twin (catalog.Declares row.entity) row twin) store.rows
    other.rows

namespace Plan

def entities (plan : Plan) : List String := plan.root :: plan.aliases.map Prod.snd

def Reserves (plan : Plan) (name : String) : Prop := Reserved (plan.aliases.map Prod.fst) name

def MayBeNull (plan : Plan) (catalog : Catalog) (entity key : String) : Prop :=
  (catalog.Declares entity key ∧ ¬ plan.Reserves key) ∨
    ∃ aliasName target, (aliasName, target) ∈ plan.aliases ∧ ∃ name, isQualified name = false ∧
      key = qualify aliasName name ∧ catalog.Declares target name

structure Separates (plan : Plan) (catalog : Catalog) (store : Store) : Prop where
  stored : ∀ record ∈ store.rows, record.entity ∈ plan.entities →
    ∀ name ∈ record.attributes.names, ¬ plan.Reserves name
  ids : ∀ entity ∈ plan.entities, ∀ name, catalog.primaryId entity = .ok name →
    ¬ plan.Reserves name
  references : ∀ entity ∈ plan.entities, ∀ name,
    catalog.attributeType? entity name = some (.ok .reference) → isQualified name = false

end Plan

section Columns

variable {catalog : Catalog} {plan : Plan} {entity : String} {accessor : Accessor}

abbrev Accessor.Of (accessor : Accessor) (catalog : Catalog) (plan : Plan) (entity : String) :
    Prop :=
  accessor.In catalog plan.aliases (.root entity)

theorem Accessor.of_link {aliasName target : String} (h : (aliasName, target) ∈ plan.aliases)
    (hnodup : (plan.aliases.map Prod.fst).Nodup)
    (hin : accessor.In catalog plan.aliases (.link target aliasName)) :
    accessor.Of catalog plan entity := by
  obtain ⟨scope, column, hscope, haccessor⟩ := hin
  refine ⟨scope, column, Or.inr ?_, haccessor⟩
  rcases hscope with rfl | hscope
  · exact ⟨aliasName, target, AliasMap.entity_eq_ok hnodup h, rfl⟩
  · exact hscope

theorem not_declares_of_nameOf {name base : String} {column : ResolvedColumn}
    (h : catalog.resolve entity name = .ok column) (hsource : column.source = .nameOf base) :
    ¬ catalog.Declares entity name := by
  rintro ⟨⟨other, hother, hdirect⟩, -⟩
  obtain rfl := Except.ok.inj (h.symm.trans hother)
  rw [hsource] at hdirect
  contradiction

theorem Accessor.Of.not_mayBeNull (h : accessor.Of catalog plan entity)
    (hnodup : (plan.aliases.map Prod.fst).Nodup) (hentity : entity ∈ plan.entities)
    (hreferences : ∀ entity ∈ plan.entities, ∀ name,
      catalog.attributeType? entity name = some (.ok .reference) → isQualified name = false) :
    accessor.referenceKey? = none ∨ ¬ plan.MayBeNull catalog entity accessor.key := by
  obtain ⟨scope, name, hscope, haccessor⟩ := h
  obtain ⟨column, hcolumn, rfl⟩ := map_eq_ok_iff.mp haccessor
  cases hsource : column.source with
  | direct => exact Or.inl (by rw [Accessor.ofColumn, hsource])
  | nameOf base =>
    right
    have hundeclared := not_declares_of_nameOf hcolumn hsource
    obtain ⟨hreference, hbase⟩ := Catalog.resolve_nameOf hcolumn hsource
    have hplain (hmem : scope.entity ∈ plan.entities) : isQualified name = false := by
      have hnot := Record.not_mem_of_not_isQualified (hreferences _ hmem base hreference)
      simp [isQualified, hbase, hnot]
    have hkey : (Accessor.ofColumn scope.alias? column).key =
        Accessor.qualifiedBy scope.alias? name := by
      rw [Accessor.ofColumn, Catalog.resolve_name hcolumn]
    rw [hkey]
    -- The name has no point, so that no alias but that of the scope stands in front of it.
    rcases hscope with rfl | ⟨aliasName, target, htarget, rfl⟩
    · rintro (⟨hdeclared, -⟩ | ⟨aliasName, target, -, inner, -, heq, -⟩)
      · exact hundeclared hdeclared
      · have hname := hplain hentity
        rw [show name = qualify aliasName inner from heq, Record.isQualified_qualify] at hname
        contradiction
    · have hmem := AliasMap.mem_of_entity_eq_ok htarget
      have hname := hplain (List.mem_cons_of_mem _ (List.mem_map_of_mem hmem))
      rintro (⟨-, hfree⟩ | ⟨otherName, other, hother, inner, hinner, heq, hdeclared⟩)
      · exact hfree ⟨aliasName, List.mem_map_of_mem hmem, name, hname, rfl⟩
      · obtain ⟨rfl, rfl⟩ := Record.qualify_injective hname hinner heq
        have hentity := AliasMap.entity_eq_ok hnodup hother
        obtain rfl := Except.ok.inj (htarget.symm.trans hentity)
        exact hundeclared hdeclared

end Columns

section Scans

variable {catalog : Catalog} {plan : Plan} {entity primaryId : String} {row other : Record}
variable {a b : Store}

theorem Relation.get?_identified (primaryId key : String) (record : Record) :
    (identified primaryId record).get? key =
      (record.get? key).or (if key = primaryId then some (.uuid record.id) else none) := by
  unfold identified Attributes.contains
  cases hvalue : record.attributes.get? primaryId with
  | some value =>
    rw [Option.isSome_some, if_pos rfl]
    by_cases hkey : key = primaryId
    · rw [hkey, Record.get?, hvalue, Option.some_or]
    · rw [if_neg hkey, Option.or_none]
  | none =>
    rw [Option.isSome_none, if_neg Bool.false_ne_true, Record.get?_set]
    by_cases hkey : key = primaryId
    · rw [if_pos hkey, if_pos hkey, hkey, Record.get?, hvalue, Option.none_or]
    · rw [if_neg hkey, if_neg hkey, Option.or_none]

theorem Relation.identity_identified (primaryId : String) (record : Record) :
    (identified primaryId record).identity = record.identity := by
  unfold identified
  split <;> rfl

theorem Record.Twin.identified (h : Twin (catalog.Declares entity) row other)
    (hrow : ∀ name ∈ row.attributes.names, ¬ plan.Reserves name)
    (hother : ∀ name ∈ other.attributes.names, ¬ plan.Reserves name)
    (hid : catalog.primaryId entity = .ok primaryId) (hfree : ¬ plan.Reserves primaryId) :
    OpenTwin (plan.MayBeNull catalog entity) (plan.aliases.map Prod.fst)
      (Relation.identified primaryId row) (Relation.identified primaryId other) := by
  have hnone (record : Record) (hstored : ∀ name ∈ record.attributes.names, ¬ plan.Reserves name)
      (key : String) (hkey : plan.Reserves key) :
      (Relation.identified primaryId record).get? key = none := by
    have hne : key ≠ primaryId := by
      rintro rfl
      exact hfree hkey
    rw [Relation.get?_identified, if_neg hne, Option.or_none]
    exact Record.lookup_eq_none fun hmem => hstored key hmem hkey
  constructor
  · constructor
    · rw [Relation.identity_identified, Relation.identity_identified, h.identity]
    · intro key
      by_cases hkey : plan.Reserves key
      · exact Or.inl (by rw [hnone row hrow key hkey, hnone other hother key hkey])
      · have hsame : other.id = row.id := congrArg Prod.snd h.identity
        rw [Relation.get?_identified, Relation.get?_identified]
        rcases h.held key with heq | ⟨hdeclared, hblank, hblank'⟩
        · exact Or.inl (by rw [heq, hsame])
        · have hne : key ≠ primaryId := by
            rintro rfl
            exact hdeclared.2 hid
          simp only [if_neg hne, Option.or_none]
          exact Or.inr ⟨Or.inl ⟨hdeclared, hkey⟩, hblank, hblank'⟩
  · exact fun key hkey => ⟨hnone row hrow key hkey, hnone other hother key hkey⟩

theorem forall₂_with_mem {α β : Type} {R : α → β → Prop} {items : List α} {others : List β}
    (h : List.Forall₂ R items others) :
    List.Forall₂ (fun a b => (a ∈ items ∧ b ∈ others) ∧ R a b) items others := by
  induction h with
  | nil => exact .nil
  | cons hR _ ih =>
    refine .cons ⟨⟨List.mem_cons_self, List.mem_cons_self⟩, hR⟩ (ih.imp ?_)
    rintro a b ⟨⟨ha, hb⟩, hab⟩
    exact ⟨⟨List.mem_cons_of_mem _ ha, List.mem_cons_of_mem _ hb⟩, hab⟩

namespace Store.Twin

theorem records (h : Store.Twin catalog a b) (entity : String) :
    List.Forall₂ (Record.Twin (catalog.Declares entity)) (a.records entity)
      (b.records entity) := by
  have hsame : List.Forall₂ (fun row other => Record.Twin (catalog.Declares row.entity) row other)
      (a.records entity) (b.records entity) := by
    refine List.rel_filter ?_ h
    intro row other hrow
    have hentity : other.entity = row.entity := congrArg Prod.fst hrow.identity
    simp only [hentity]
  refine (forall₂_with_mem hsame).imp ?_
  rintro row other ⟨⟨hmem, -⟩, hrow⟩
  have hentity : row.entity = entity := by simpa using (List.mem_filter.mp hmem).2
  rwa [hentity] at hrow

theorem scan (h : Store.Twin catalog a b) (ha : plan.Separates catalog a)
    (hb : plan.Separates catalog b) (hentity : entity ∈ plan.entities)
    (hid : catalog.primaryId entity = .ok primaryId) :
    Relation.Alike (OpenTwin (plan.MayBeNull catalog entity) (plan.aliases.map Prod.fst))
      (.scan a entity primaryId) (.scan b entity primaryId) := by
  have hstored {store : Store} (hstore : plan.Separates catalog store) {record : Record}
      (hmem : record ∈ store.records entity) :
      ∀ name ∈ record.attributes.names, ¬ plan.Reserves name := by
    obtain ⟨hrow, hsame⟩ := List.mem_filter.mp hmem
    obtain rfl : record.entity = entity := by simpa using hsame
    exact hstore.stored record hrow hentity
  constructor
  · rw [Relation.scan, Relation.scan, Relation.ofRecords, Relation.ofRecords,
      List.forall₂_map_left_iff, List.forall₂_map_right_iff]
    refine (forall₂_with_mem (h.records entity)).imp ?_
    rintro row other ⟨⟨hrow, hother⟩, htwin⟩
    exact htwin.identified (hstored ha hrow) (hstored hb hother) hid (ha.ids entity hentity _ hid)
  · rfl

end Store.Twin

end Scans

namespace Hierarchy

variable {hierarchy other : Hierarchy}

structure Alike (hierarchy other : Hierarchy) : Prop where
  contains : ∀ id, other.contains id = hierarchy.contains id
  parent? : ∀ id, other.parent? id = hierarchy.parent? id
  children : ∀ id, other.children id = hierarchy.children id
  count : other.store.count other.entity = hierarchy.store.count hierarchy.entity

namespace Alike

variable (h : Alike hierarchy other)

include h

theorem climb (steps : Nat) (seen : List Uuid) (id : Uuid) :
    other.climb steps seen id = hierarchy.climb steps seen id := by
  induction steps generalizing seen id with
  | zero => rfl
  | succ steps ih =>
    unfold Hierarchy.climb
    rw [h.parent?]
    cases hierarchy.parent? id with
    | none => rfl
    | some parent => simp only [ih]

theorem descend (steps : Nat) (seen waiting : List Uuid) :
    other.descend steps seen waiting = hierarchy.descend steps seen waiting := by
  induction steps generalizing seen waiting with
  | zero => rfl
  | succ steps ih =>
    cases waiting with
    | nil => rfl
    | cons id waiting => simp only [Hierarchy.descend, h.children, ih]

theorem kinOf (kinship : Kinship) (id : Uuid) :
    Condition.kinOf other kinship id = Condition.kinOf hierarchy kinship id := by
  have hancestors : other.ancestors id = hierarchy.ancestors id := by
    rw [ancestors, h.climb, h.count, ancestors]
  have hdescendants : other.descendants id = hierarchy.descendants id := by
    rw [descendants, h.descend, h.count, descendants]
  unfold Condition.kinOf
  rw [h.contains, hancestors, hdescendants]

end Alike

end Hierarchy

section Kin

variable {catalog : Catalog} {a b : Store}

theorem Record.Twin.uuid? {K : String → Prop} {row other : Record} (h : Twin K row other)
    (key : String) : (other.getUnwrapped? key).bind Value.uuid? =
      (row.getUnwrapped? key).bind Value.uuid? := by
  rcases h.held key with heq | ⟨-, hblank, hblank'⟩
  · rw [getUnwrapped?, heq, getUnwrapped?]
  · have hnone {row : Record} (h : Blank (row.get? key)) :
        (row.getUnwrapped? key).bind Value.uuid? = none := by
      rcases getUnwrapped?_of_blank h with h | h <;> rw [h] <;> rfl
    rw [hnone hblank, hnone hblank']

theorem find?_alike {α β : Type} {R : α → β → Prop} {items : List α} {others : List β}
    (h : List.Forall₂ R items others) {f : α → Bool} {g : β → Bool}
    (hfg : ∀ a b, R a b → g b = f a) : (items.find? f = none ∧ others.find? g = none) ∨
      ∃ a b, items.find? f = some a ∧ others.find? g = some b ∧ R a b := by
  induction h with
  | nil => exact Or.inl ⟨rfl, rfl⟩
  | @cons a b _ _ hR _ ih =>
    rw [List.find?_cons, List.find?_cons, hfg a b hR]
    cases f a with
    | true => exact Or.inr ⟨a, b, rfl, rfl, hR⟩
    | false => exact ih

theorem Store.Twin.hierarchy (h : Store.Twin catalog a b) (entity column : String) :
    Hierarchy.Alike ⟨a, entity, column⟩ ⟨b, entity, column⟩ := by
  have hfound (id : Uuid) : (a.get? entity id = none ∧ b.get? entity id = none) ∨
      ∃ row other, a.get? entity id = some row ∧ b.get? entity id = some other ∧
        Record.Twin (catalog.Declares row.entity) row other := by
    apply find?_alike h
    intro row other hrow
    obtain ⟨hentity, hid⟩ := Prod.mk.inj hrow.identity
    rw [Record.isAt, hentity, hid, Record.isAt]
  have hparent {K : String → Prop} {row other : Record} (hrow : Record.Twin K row other) :
      Hierarchy.parentIn ⟨b, entity, column⟩ other = Hierarchy.parentIn ⟨a, entity, column⟩ row :=
    hrow.uuid? column
  constructor
  · intro id
    rw [Hierarchy.contains, Hierarchy.contains]
    rcases hfound id with ⟨hrow, hother⟩ | ⟨row, other, hrow, hother, -⟩
    · rw [hrow, hother]
    · rw [hrow, hother]
      rfl
  · intro id
    rw [Hierarchy.parent?, Hierarchy.parent?]
    rcases hfound id with ⟨hrow, hother⟩ | ⟨row, other, hrow, hother, htwin⟩
    · rw [hrow, hother]
      rfl
    · rw [hrow, hother]
      exact hparent htwin
  · intro id
    have hchildren := List.rel_filter (p := fun row =>
      Hierarchy.parentIn ⟨a, entity, column⟩ row == some id) (q := fun row =>
      Hierarchy.parentIn ⟨b, entity, column⟩ row == some id) (fun row other hrow => by
        simp only [hparent hrow]) (h.records entity)
    have hids := List.forall₂_map_left_iff.mpr (List.forall₂_map_right_iff.mpr
      (hchildren.imp fun row other hrow => (congrArg Prod.snd hrow.identity).symm))
    rw [List.forall₂_eq_eq_eq] at hids
    exact hids.symm
  · exact (h.records entity).length_eq.symm

end Kin

section Filters

variable {context : Context} {store : Store}

theorem Predicate.Congruence.eq : Predicate.Congruence Eq where
  refl _ := rfl
  combine connective parts others h := by
    rw [List.forall₂_eq_eq_eq] at h
    rw [h]

theorem Store.Twin.compile (h : Store.Twin context.catalog context.store store)
    (aliases : AliasMap) (scope : Scope) (filter : Filter) :
    filter.compile (context.withStore store) aliases scope =
      filter.compile context aliases scope := by
  have hkin : context.KinAlike store Eq := by
    intro accessor entity column kinship id
    rw [(h.hierarchy entity column).kinOf]
  exact (filter.compile_withStore Predicate.Congruence.eq hkin aliases scope).eq

end Filters

end RecordQuery
