import RecordQuery.Proofs.Carrying
import RecordQuery.Proofs.Predicate.Alike
import RecordQuery.Proofs.Relation.Linking

namespace RecordQuery

/-- Like rows have the same keys under the aliases, and stay alike when a record is merged into both
of them under one of the aliases. -/
structure Likeness (names : List String) (S : Record → Record → Prop) : Prop where
  keys : ∀ aliasName ∈ names, ∀ column row other, S row other →
    other.keyAt? (Record.qualify aliasName column) = row.keyAt? (Record.qualify aliasName column)
  merge : ∀ aliasName ∈ names, ∀ target row other, S row other →
    S (row.merge aliasName target) (other.merge aliasName target)

namespace Likeness

variable {names others : List String} {S : Record → Record → Prop}

theorem eq (names : List String) : Likeness names Eq where
  keys _ _ _ _ _ h := by rw [h]
  merge _ _ _ _ _ h := by rw [h]

theorem mono (h : Likeness names S) (hsubset : others ⊆ names) : Likeness others S where
  keys aliasName hmem := h.keys aliasName (hsubset hmem)
  merge aliasName hmem := h.merge aliasName (hsubset hmem)

theorem merge_eq (h : Likeness names S) {aliasName : String} (hmem : aliasName ∈ names)
    (row other : Record) (hS : S row other) (target target' : Record) (heq : target = target') :
    S (row.merge aliasName target) (other.merge aliasName target') :=
  heq ▸ h.merge aliasName hmem target row other hS

end Likeness

namespace Relation

variable {S T U : Record → Record → Prop} {p q : Predicate}

theorem any_alike {rows others : List Record} {f g : Record → Bool}
    (h : List.Forall₂ S rows others) (hfg : ∀ row other, S row other → g other = f row) :
    others.any g = rows.any f := by
  induction h with
  | nil => rfl
  | cons hS _ ih => rw [List.any_cons, List.any_cons, ih, hfg _ _ hS]

theorem all_alike {rows others : List Record} {f g : Record → Bool}
    (h : List.Forall₂ S rows others) (hfg : ∀ row other, S row other → g other = f row) :
    others.all g = rows.all f := by
  induction h with
  | nil => rfl
  | cons hS _ ih => rw [List.all_cons, List.all_cons, ih, hfg _ _ hS]

theorem faultsBefore_alike {rows others : List Record} (h : List.Forall₂ S rows others)
    (hp : Predicate.Alike S p q) (sought : Bool) :
    faultsBefore q sought others = faultsBefore p sought rows := by
  induction h with
  | nil => rfl
  | cons hS _ ih =>
    obtain ⟨hadmits, hfaults⟩ := hp _ _ hS
    rw [faultsBefore, faultsBefore, hadmits, hfaults, ih]

theorem keepFaults_alike {rows others : List Record} (h : List.Forall₂ S rows others)
    (hp : Predicate.Alike S p q) (kind : JoinKind) :
    keepFaults kind q others = keepFaults kind p rows := by
  cases kind <;> simp only [keepFaults, faultsBefore_alike h hp]

theorem keeps_alike {rows others : List Record} (h : List.Forall₂ S rows others)
    (hp : Predicate.Alike S p q) (kind : JoinKind) : keeps kind q others = keeps kind p rows := by
  have hadmits : ∀ row other, S row other → q.admits other = p.admits row :=
    fun row other hS => (hp row other hS).1
  cases kind with
  | inner => cases h <;> rfl
  | leftOuter => cases h <;> rfl
  | all => exact all_alike h hadmits
  | notAll => exact any_alike h fun row other hS => congrArg (!·) (hadmits row other hS)
  | any => exact any_alike h hadmits
  | notAny => exact congrArg (!·) (any_alike h hadmits)

structure Alike (S : Record → Record → Prop) (left right : Relation) : Prop where
  records : List.Forall₂ S left.records right.records
  aliases : right.aliases = left.aliases

theorem Alike.refl (relation : Relation) : Alike Eq relation relation :=
  ⟨List.forall₂_same.mpr fun _ _ => rfl, rfl⟩

theorem Alike.eq {left right : Relation} (h : Alike Eq left right) : right = left := by
  obtain ⟨records, aliases⟩ := left
  obtain ⟨hrecords, haliases⟩ := h
  rw [List.forall₂_eq_eq_eq] at hrecords
  subst hrecords haliases
  rfl

variable {strict : Prop} {left left' right right' : Relation}
variable {leftColumn otherColumn rightColumn : String}

theorem Alike.imp (h : Alike S left left') (himp : ∀ row other, S row other → T row other) :
    Alike T left left' where
  records := h.records.imp himp
  aliases := h.aliases

theorem Alike.filter (h : Alike S left left') (hp : Predicate.Alike S p q) :
    Carries strict (Alike S) (left.filter p) (left'.filter q) := by
  unfold Relation.filter
  rw [any_alike h.records fun row other hS => (hp row other hS).2]
  split
  · exact Carries.of_error _
  · apply Carries.of_ok
    refine ⟨List.rel_filter ?_ h.records, h.aliases⟩
    intro row other hS
    simp only [(hp row other hS).1]

def LinksAlike (S T : Record → Record → Prop) (leftColumn otherColumn rightColumn : String) :
    Prop :=
  ∀ row other, S row other → ∀ target target', T target target' →
    other.linksTo target' otherColumn rightColumn = row.linksTo target leftColumn rightColumn

theorem LinksAlike.of_keyAt?
    (h : ∀ row other, S row other → other.keyAt? otherColumn = row.keyAt? leftColumn) :
    LinksAlike S Eq leftColumn otherColumn rightColumn := by
  rintro row other hS target _ rfl
  unfold Record.linksTo
  rw [h row other hS]

theorem linked_alike (hlinks : LinksAlike S T leftColumn otherColumn rightColumn)
    {row other : Record} (hS : S row other) {targets others : List Record}
    (h : List.Forall₂ T targets others) :
    List.Forall₂ T (linked targets leftColumn rightColumn row)
      (linked others otherColumn rightColumn other) := by
  refine List.rel_filter ?_ h
  intro target target' hT
  simp only [hlinks row other hS target target' hT]

theorem joinRow_alike (hlinks : LinksAlike S T leftColumn otherColumn rightColumn)
    {aliasName : String} (outer : Bool) {targets others : List Record}
    (h : List.Forall₂ T targets others) {row other : Record} (hS : S row other)
    (hkeep : U row other) (hmerge : ∀ target target', T target target' →
      U (row.merge aliasName target) (other.merge aliasName target')) :
    List.Forall₂ U (joinRow targets leftColumn rightColumn aliasName outer row)
      (joinRow others otherColumn rightColumn aliasName outer other) := by
  have hlinked := linked_alike hlinks hS h
  unfold joinRow
  generalize linked targets leftColumn rightColumn row = found at hlinked ⊢
  generalize linked others otherColumn rightColumn other = found' at hlinked ⊢
  cases hlinked with
  | nil =>
    cases outer with
    | true => exact .cons hkeep .nil
    | false => exact .nil
  | cons hfirst hrest =>
    dsimp only
    rw [List.forall₂_map_left_iff, List.forall₂_map_right_iff]
    exact (List.Forall₂.cons hfirst hrest).imp hmerge

theorem Alike.join {aliasName : String} (h : Alike S left left') (hright : Alike T right right')
    (outer : Bool) (hlinks : LinksAlike S T leftColumn otherColumn rightColumn)
    (hkeep : ∀ row other, S row other → U row other)
    (hmerge : ∀ row other, S row other → ∀ target target', T target target' →
      U (row.merge aliasName target) (other.merge aliasName target')) :
    Alike U (left.join right leftColumn rightColumn aliasName outer)
      (left'.join right' otherColumn rightColumn aliasName outer) := by
  rw [join_eq, join_eq]
  constructor
  · apply List.rel_flatMap h.records
    intro row other hS
    exact joinRow_alike hlinks outer hright.records hS (hkeep row other hS) (hmerge row other hS)
  · exact congrArg (· ++ [aliasName]) h.aliases

theorem Alike.existsJoin (h : Alike S left left') (hright : Alike T right right')
    (kind : JoinKind) (hlinks : LinksAlike S T leftColumn otherColumn rightColumn)
    (hp : Predicate.Alike T p q) :
    Carries strict (Alike S) (left.existsJoin right kind leftColumn rightColumn p)
      (left'.existsJoin right' kind otherColumn rightColumn q) := by
  have hfaults : (left'.records.any fun other =>
        keepFaults kind q (linked right'.records otherColumn rightColumn other)) =
      left.records.any fun row =>
        keepFaults kind p (linked right.records leftColumn rightColumn row) := by
    apply any_alike h.records
    intro row other hS
    exact keepFaults_alike (linked_alike hlinks hS hright.records) hp kind
  simp only [Relation.existsJoin_eq, hfaults]
  split
  · exact Carries.of_error _
  · apply Carries.of_ok
    refine ⟨List.rel_filter ?_ h.records, h.aliases⟩
    intro row other hS
    simp only [keeps_alike (linked_alike hlinks hS hright.records) hp]

end Relation

/-- The filter of a link, in the place where its kind applies it, carries over to that of another
one, which joins the same records in the same way. -/
structure Link.CarriesTo (strict : Prop) (context : Context) (aliases others : AliasMap)
    (S : Record → Record → Prop) (aliasName : String) (link other : Link) : Prop where
  source : other.source = link.source
  entity : other.entity = link.entity
  target : other.target = link.target
  kind : other.kind = link.kind
  isEmpty : other.filter.isEmpty = link.filter.isEmpty
  merged : link.kind = .inner → Carries strict (Predicate.Alike S)
    (link.filter.compile context aliases (.link link.entity aliasName))
    (other.filter.compile context others (.link link.entity aliasName))
  alone : link.kind ≠ .inner → Carries strict (Predicate.Alike Eq)
    (link.filter.compile context aliases (.root link.entity))
    (other.filter.compile context others (.root link.entity))

namespace PlannedLink

theorem merged_of_not_isExistential (aliasName : String) {link : Link}
    (children : List PlannedLink) (h : link.kind.isExistential = false) :
    (mk aliasName link children).merged = ⟨aliasName, link, children⟩ :: mergedAll children := by
  rw [merged, h]
  rfl

section Trees

variable (strict : Prop) (context : Context) (aliases others : AliasMap)

mutual

def CarriesTo (S : Record → Record → Prop) : PlannedLink → PlannedLink → Prop
  | ⟨aliasName, link, children⟩, ⟨otherName, other, inner⟩ =>
    aliasName = otherName ∧ link.CarriesTo strict context aliases others S aliasName other ∧
      CarryAll (if link.kind.isExistential then Eq else S) children inner

def CarryAll (S : Record → Record → Prop) : List PlannedLink → List PlannedLink → Prop
  | [], [] => True
  | planned :: rest, other :: tail => planned.CarriesTo S other ∧ CarryAll S rest tail
  | _, _ => False

end

end Trees

end PlannedLink

namespace Context

variable {strict : Prop} {context : Context} {aliases others : AliasMap}

structure Alike (S : Record → Record → Prop) (first second : Relation × List Predicate) : Prop where
  rows : Relation.Alike S first.1 second.1
  filters : List.Forall₂ (Predicate.Alike S) first.2 second.2

theorem waitingFilter_carries {S : Record → Record → Prop} {filter other : Filter} {scope : Scope}
    (hempty : other.isEmpty = filter.isEmpty)
    (h : Carries strict (Predicate.Alike S) (filter.compile context aliases scope)
      (other.compile context others scope)) :
    Carries strict (List.Forall₂ (Predicate.Alike S))
      (context.waitingFilter aliases filter scope) (context.waitingFilter others other scope) := by
  unfold waitingFilter
  rw [hempty]
  split
  · exact Carries.of_ok .nil
  · exact h.map fun p q hpq => .cons hpq .nil

theorem Alike.joined {S : Record → Record → Prop} {relation relation' : Relation}
    {deferred deferred' waiting waiting' : List Predicate} {names : List String}
    {aliasName leftColumn otherColumn : String}
    (h : Alike S (relation, deferred) (relation', deferred'))
    (hlikeness : Likeness (aliasName :: names) S)
    (hkey : ∀ row other, S row other → other.keyAt? otherColumn = row.keyAt? leftColumn)
    (hwaiting : List.Forall₂ (Predicate.Alike S) waiting waiting')
    (right : Relation) (rightColumn : String) (outer : Bool) :
    Alike S (relation.join right leftColumn rightColumn aliasName outer, deferred ++ waiting)
      (relation'.join right otherColumn rightColumn aliasName outer, deferred' ++ waiting') where
  rows := h.rows.join (.refl right) outer (.of_keyAt? hkey) (fun _ _ hS => hS)
    (hlikeness.merge_eq List.mem_cons_self)
  filters := List.rel_append h.filters hwaiting

mutual

theorem joinLink_carries {S : Record → Record → Prop} {parent? otherParent? : Option String}
    {relation relation' : Relation} {deferred deferred' : List Predicate} :
    (planned other : PlannedLink) →
    planned.CarriesTo strict context aliases others S other →
    Likeness (planned.merged.map (·.aliasName)) S →
    (∀ row other, S row other →
      other.keyAt? (Accessor.qualifiedBy otherParent? planned.link.source) =
        row.keyAt? (Accessor.qualifiedBy parent? planned.link.source)) →
    Alike S (relation, deferred) (relation', deferred') →
    Carries strict (Alike S) (context.joinLink aliases parent? relation deferred planned)
      (context.joinLink others otherParent? relation' deferred' other)
  | ⟨aliasName, link, children⟩, ⟨_, other, inner⟩, hcarries, hlikeness, hkey, hrows => by
    obtain ⟨rfl, hlink, hchildren⟩ := hcarries
    obtain ⟨hsource, hentity, htarget, hkind, hempty, hmerged, halone⟩ := hlink
    have hscan : Carries strict Eq (context.scan link.entity) (context.scan other.entity) :=
      Carries.of_eq (by rw [hentity])
    cases hcase : link.kind with
    | inner =>
      have hexistential : link.kind.isExistential = false := by rw [hcase]; rfl
      rw [PlannedLink.merged_of_not_isExistential _ _ hexistential, List.map_cons] at hlikeness
      rw [hexistential, if_neg Bool.false_ne_true] at hchildren
      rw [joinLink_inner _ _ _ _ _ _ hcase,
        joinLink_inner _ _ _ _ _ _ (hkind.trans hcase)]
      apply hscan.bind
      rintro right _ rfl
      rw [hentity, hsource, htarget]
      apply (waitingFilter_carries hempty (hmerged hcase)).bind
      intro waiting waiting' hwaiting
      apply joinLinks_carries children inner hchildren
      · exact hlikeness.mono (List.subset_cons_self _ _)
      · exact fun planned _ row other hS =>
          hlikeness.keys aliasName List.mem_cons_self planned.link.source row other hS
      · exact hrows.joined hlikeness hkey hwaiting _ _ false
    | leftOuter =>
      have hexistential : link.kind.isExistential = false := by rw [hcase]; rfl
      rw [PlannedLink.merged_of_not_isExistential _ _ hexistential, List.map_cons] at hlikeness
      rw [hexistential, if_neg Bool.false_ne_true] at hchildren
      rw [joinLink_leftOuter _ _ _ _ _ _ hcase,
        joinLink_leftOuter _ _ _ _ _ _ (hkind.trans hcase)]
      apply hscan.bind
      rintro right _ rfl
      rw [hentity, hsource, htarget]
      apply (halone (by rw [hcase]; decide)).bind
      intro p q hpq
      apply ((Relation.Alike.refl right).filter hpq).bind
      intro admitted admitted' hadmitted
      obtain rfl := hadmitted.eq
      have hwaiting : Carries strict (List.Forall₂ (Predicate.Alike S))
          (context.waitingFilter aliases link.filter.relaxed (.link link.entity aliasName))
          (context.waitingFilter others other.filter.relaxed (.link link.entity aliasName)) :=
        waitingFilter_carries (by rw [Filter.isEmpty_relaxed, Filter.isEmpty_relaxed, hempty])
          (Filter.compile_relaxed_carries link.filter other.filter)
      apply hwaiting.bind
      intro waiting waiting' hwaiting
      apply joinLinks_carries children inner hchildren
      · exact hlikeness.mono (List.subset_cons_self _ _)
      · exact fun planned _ row other hS =>
          hlikeness.keys aliasName List.mem_cons_self planned.link.source row other hS
      · exact hrows.joined hlikeness hkey hwaiting _ _ true
    | _ =>
      -- The rows that are joined inside are the same, whatever the rows are that stay by them.
      have hexistential : link.kind.isExistential = true := by rw [hcase]; rfl
      rw [hexistential, if_pos rfl] at hchildren
      rw [joinLink_existential _ _ _ _ _ _ hexistential,
        joinLink_existential _ _ _ _ _ _ (by rw [hkind, hexistential])]
      apply hscan.bind
      rintro right _ rfl
      rw [hentity, hsource, htarget, hkind]
      apply (halone (by rw [hcase]; decide)).bind
      intro p q hpq
      have hinner : Carries strict (Alike Eq)
          (context.joinLinks aliases none right [p] children)
          (context.joinLinks others none right [q] inner) :=
        joinLinks_carries children inner hchildren (Likeness.eq _) (fun _ _ _ _ h => by rw [h])
          ⟨Relation.Alike.refl right, .cons hpq .nil⟩
      apply hinner.bind
      rintro ⟨_, filters⟩ ⟨linked, filters'⟩ hlinked
      obtain rfl := hlinked.rows.eq
      apply (hrows.rows.existsJoin (.refl linked) link.kind (.of_keyAt? hkey)
        (Predicate.Alike.conjunction hlinked.filters)).bind
      intro kept kept' hkept
      exact Carries.of_ok ⟨hkept, hrows.filters⟩

theorem joinLinks_carries {S : Record → Record → Prop} {parent? otherParent? : Option String}
    {relation relation' : Relation} {deferred deferred' : List Predicate} :
    (links tail : List PlannedLink) →
    PlannedLink.CarryAll strict context aliases others S links tail →
    Likeness ((PlannedLink.mergedAll links).map (·.aliasName)) S →
    (∀ planned ∈ links, ∀ row other, S row other →
      other.keyAt? (Accessor.qualifiedBy otherParent? planned.link.source) =
        row.keyAt? (Accessor.qualifiedBy parent? planned.link.source)) →
    Alike S (relation, deferred) (relation', deferred') →
    Carries strict (Alike S) (context.joinLinks aliases parent? relation deferred links)
      (context.joinLinks others otherParent? relation' deferred' tail)
  | [], [], _, _, _, hrows => by
    simp only [joinLinks]
    exact Carries.of_ok hrows
  | planned :: rest, other :: tail, hcarries, hlikeness, hkey, hrows => by
    obtain ⟨hfirst, hrest⟩ := hcarries
    simp only [PlannedLink.mergedAll, List.map_append] at hlikeness
    simp only [joinLinks]
    have hstep := joinLink_carries planned other hfirst
      (hlikeness.mono (List.subset_append_left _ _)) (hkey planned List.mem_cons_self) hrows
    apply hstep.bind
    rintro ⟨joined, waiting⟩ ⟨joined', waiting'⟩ hjoined
    exact joinLinks_carries rest tail hrest (hlikeness.mono (List.subset_append_right _ _))
      (fun link hmem => hkey link (List.mem_cons_of_mem _ hmem)) hjoined

end

end Context

end RecordQuery
