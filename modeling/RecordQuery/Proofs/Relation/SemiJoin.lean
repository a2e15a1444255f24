import RecordQuery.Proofs.Relation.Complement
import RecordQuery.Proofs.Relation.Existential
import RecordQuery.Proofs.Relation.Finding

/-!
The link that asks for any record is the semi-join of the inner link. The rows that the one looks at
are those that the other one makes, without the row that they are joined to; and whatever follows
does not see the difference.
-/

namespace RecordQuery

open PlannedLink

namespace Relation

theorem linked_flatMap {rows : Record → List Record} {rightColumn : String}
    (hrows : ∀ target, ∀ row ∈ rows target, row.get? rightColumn = target.get? rightColumn)
    (right : List Record) (leftColumn : String) (record : Record) :
    linked (right.flatMap rows) leftColumn rightColumn record =
      (linked right leftColumn rightColumn record).flatMap rows := by
  have htarget : ∀ target,
      (rows target).filter (fun row => record.linksTo row leftColumn rightColumn) =
        if record.linksTo target leftColumn rightColumn then rows target else [] := by
    intro target
    rw [List.filter_congr fun row hrow =>
      Record.linksTo_congr (hrows target row hrow) record leftColumn]
    cases record.linksTo target leftColumn rightColumn <;> simp
  unfold linked
  rw [List.filter_flatMap]
  simp only [htarget]
  exact flatMap_ite right

theorem exists_identity_iff {rows : Record → List Record}
    (hsame : ∀ record, ∀ row ∈ rows record, row.identity = record.identity)
    (records : List Record) (identity : String × Uuid) :
    (∃ row ∈ records.flatMap rows, row.identity = identity) ↔
      ∃ record ∈ records, record.identity = identity ∧ ∃ row, row ∈ rows record := by
  constructor
  · rintro ⟨row, hrow, rfl⟩
    obtain ⟨record, hrecord, hrow⟩ := List.mem_flatMap.mp hrow
    exact ⟨record, hrecord, (hsame record row hrow).symm, row, hrow⟩
  · rintro ⟨record, hrecord, rfl, row, hrow⟩
    exact ⟨row, List.mem_flatMap.mpr ⟨record, hrecord, hrow⟩, hsame record row hrow⟩

theorem exists_mem_filter (records : List Record) (keep : Record → Bool) :
    (∃ record, record ∈ records.filter keep) ↔ records.any keep = true := by
  simp only [List.mem_filter, List.any_eq_true]

theorem exists_mem_flatMap_filter (records : List Record) (rows : Record → List Record)
    (keep : Record → Bool) :
    (∃ row, row ∈ records.flatMap fun record => (rows record).filter keep) ↔
      (records.any fun record => (rows record).any keep) = true := by
  rw [← List.filter_flatMap, exists_mem_filter, List.any_flatMap]

theorem any_eq_and {records : List Record} {f g : Record → Bool} {holds : Bool}
    (h : ∀ record ∈ records, f record = (holds && g record)) :
    records.any f = (holds && records.any g) := by
  induction records with
  | nil => simp
  | cons record rest ih =>
    rw [List.any_cons, List.any_cons, h record List.mem_cons_self,
      ih fun other hother => h other (List.mem_cons_of_mem _ hother)]
    cases holds <;> simp

section Rows

variable {aliasName : String} {names : List String} {record : Record}

theorem forall₂_holds (hnested : Nested aliasName names)
    (hfresh : record.Fresh (aliasName :: names)) {right : List Record}
    (hright : ∀ target ∈ right, target.Plain) {leftColumn rightColumn : String}
    {faulty : Record → Bool} {rows targetRows : Record → List Record}
    (hkey : ∀ target, ∀ row ∈ targetRows target, row.get? rightColumn = target.get? rightColumn)
    (hrows : ∀ row target, Record.Holds aliasName names row target → faulty row = false →
      List.Forall₂ (Record.Holds aliasName names) (rows row) (targetRows target))
    (hfaulty : ∀ row ∈ joinRow right leftColumn rightColumn aliasName false record,
      faulty row = false) :
    List.Forall₂ (Record.Holds aliasName names)
      ((joinRow right leftColumn rightColumn aliasName false record).flatMap rows)
      (linked (right.flatMap targetRows) leftColumn rightColumn record) := by
  rw [Follows.joinRow_inner] at hfaulty ⊢
  rw [linked_flatMap hkey, List.flatMap_map]
  have htargets : List.Forall₂
      (fun target other => target = other ∧ target ∈ linked right leftColumn rightColumn record)
      (linked right leftColumn rightColumn record) (linked right leftColumn rightColumn record) :=
    List.forall₂_same.mpr fun target hmem => ⟨rfl, hmem⟩
  apply List.rel_flatMap htargets
  rintro target _ ⟨rfl, hmem⟩
  have hplain := hright target (List.mem_filter.mp hmem).1
  exact hrows _ target (hnested.holds_merge hfresh hplain) (hfaulty _ (List.mem_map_of_mem hmem))

theorem any_admits_eq {others : List String} {nested linked : List Record}
    (hpairs : List.Forall₂ (Record.Holds aliasName names) nested linked)
    (hagrees : ∀ row ∈ nested, Record.AgreesOutside (aliasName :: names) row record)
    {faulty : Record → Bool} {rows : Record → List Record}
    (hfaulty : ∀ row ∈ nested, faulty row = false) (hframe : Frame others rows)
    (hapart : Apart (aliasName :: names) others)
    (hrows : ∀ row other, Record.AgreesOutside (aliasName :: names) row other → faulty row = false →
      List.Forall₂ (Record.AgreesOutside (aliasName :: names)) (rows row) (rows other))
    {waiting inside late : List Predicate} {predicate : Predicate}
    (hinside : Predicate.Alike (Record.Holds aliasName names) (Predicate.conjunction inside)
      predicate)
    (houtside : Predicate.Alike (Record.AgreesOutside (aliasName :: names))
      (Predicate.conjunction (waiting ++ late)) (Predicate.conjunction (waiting ++ late))) :
    (nested.any fun row =>
        (rows row).any (Predicate.conjunction (waiting ++ inside ++ late)).admits) =
      (linked.any predicate.admits &&
        (rows record).any (Predicate.conjunction (waiting ++ late)).admits) := by
  have hrow : ∀ row target, row ∈ nested → Record.Holds aliasName names row target →
      (rows row).any (Predicate.conjunction (waiting ++ inside ++ late)).admits =
        (predicate.admits target &&
          (rows record).any (Predicate.conjunction (waiting ++ late)).admits) := by
    intro row target hmem hholds
    have hlast : ∀ last ∈ rows row,
        (Predicate.conjunction (waiting ++ inside ++ late)).admits last =
          (predicate.admits target && (Predicate.conjunction (waiting ++ late)).admits last) := by
      intro last hlast
      rw [(hinside last target (hholds.of_frame hframe hapart hlast)).1]
      simp only [Predicate.admits_conjunction, List.all_append]
      cases waiting.all (·.admits last) <;> cases inside.all (·.admits last) <;> rfl
    have hagree := any_alike (hrows row record (hagrees row hmem) (hfaulty row hmem))
      fun last other h => (houtside last other h).1
    rw [hagree, any_eq_and hlast]
  have hmembers := (List.forall₂_and_left _ _).mpr
    ⟨fun (row : Record) (hmem : row ∈ nested) => hmem, hpairs⟩
  rw [← any_alike hmembers fun row target h => (hrow row target h.1 h.2).symm, Bool.and_comm]
  exact any_eq_and fun target _ => Bool.and_comm _ _

end Rows

end Relation

theorem Pointwise.alike {S : Record → Record → Prop} {names others : List String}
    {run next : Relation → List Predicate → Except Error (Relation × List Predicate)}
    {faulty nextFaulty : Record → Bool} {rows nextRows : Record → List Record}
    {added nextAdded : List String} {waiting nextWaiting : List Predicate}
    (h : Pointwise names run faulty rows added waiting)
    (hnext : Pointwise others next nextFaulty nextRows nextAdded nextWaiting) {row other : Record}
    (hcarries : Carries True (Context.Alike S) (run (.ofRecords [row]) [])
      (next (.ofRecords [other]) [])) (hrow : faulty row = false) :
    List.Forall₂ S (rows row) (nextRows other) ∧
      List.Forall₂ (Predicate.Alike S) waiting nextWaiting := by
  rw [h.run_eq, hnext.run_eq] at hcarries
  simp only [Relation.ofRecords, List.any_cons, List.any_nil, Bool.or_false, List.flatMap_singleton,
    List.nil_append, hrow, Bool.false_eq_true, if_false] at hcarries
  obtain ⟨answer, hanswer, halike⟩ := hcarries.ok _ rfl
  split at hanswer
  · contradiction
  · obtain rfl := Except.ok.inj hanswer
    exact ⟨halike.rows.records, halike.filters⟩

namespace PlannedLink

theorem stepsAll_append (parent? : Option String) (links others : List PlannedLink) :
    stepsAll parent? (links ++ others) = stepsAll parent? links ++ stepsAll parent? others := by
  induction links with
  | nil => rfl
  | cons planned rest ih => rw [List.cons_append, stepsAll, stepsAll, ih, List.append_assoc]

theorem mem_stepsAll (parent? : Option String) {links : List PlannedLink} {planned : PlannedLink}
    (h : planned ∈ links) :
    ⟨parent?, planned.aliasName, planned.link⟩ ∈ stepsAll parent? links := by
  obtain ⟨before, after, rfl⟩ := List.mem_iff_append.mp h
  obtain ⟨aliasName, link, children⟩ := planned
  rw [stepsAll_append, stepsAll, steps]
  exact List.mem_append_right _ List.mem_cons_self

end PlannedLink

theorem Apart.of_nodup {names others : List String} (hnodup : (names ++ others).Nodup)
    (hplain : ∀ name ∈ names ++ others, Record.isQualified name = false) : Apart names others := by
  intro first hfirst second hsecond name key heq
  have hsame := Record.qualify_left_injective (hplain first (List.mem_append_left _ hfirst))
    (hplain second (List.mem_append_right _ hsecond)) heq
  exact (List.nodup_append.mp hnodup).2.2 first hfirst second hsecond hsame

theorem Apart.symm {names others : List String} (h : Apart names others) : Apart others names :=
  fun first hfirst second hsecond name key heq =>
    h second hsecond first hfirst key name heq.symm

theorem Apart.mono {names names' others others' : List String} (h : Apart names others)
    (hnames : names' ⊆ names) (hothers : others' ⊆ others) : Apart names' others' :=
  fun first hfirst second hsecond => h first (hnames hfirst) second (hothers hsecond)

def Condition.Own (condition : Condition) : Prop :=
  Record.isQualified condition.column = false ∧ condition.Unqualified

theorem Condition.Own.mentions_eq_nil {condition : Condition} (h : condition.Own) :
    condition.mentions = [] := by
  obtain ⟨-, halias, hother⟩ := h
  rw [mentions, halias]
  cases hcase : condition.other? with
  | none => rfl
  | some other => simp [hother other hcase]

theorem Filter.reads_of_own {filter : Filter}
    (h : ∀ condition ∈ filter.conditionsWithin, condition.Own)
    (aliases : AliasMap) (names : List String) : filter.Reads aliases names := by
  intro condition hcondition
  have hown := h condition hcondition
  refine ⟨hown.1, fun aliasName hmem => ?_⟩
  rw [hown.mentions_eq_nil] at hmem
  contradiction

theorem Filter.waiting_alike {context : Context} {aliases : AliasMap} {filter : Filter}
    {entity aliasName : String} {names : List String} {waiting rest others : List Predicate}
    {own : Predicate} (hfilter : ∀ condition ∈ filter.conditionsWithin, condition.Own)
    (hwaiting : context.waitingFilter aliases filter (.link entity aliasName) = .ok waiting)
    (hown : filter.compile context aliases (.root entity) = .ok own)
    (hrest : List.Forall₂ (Predicate.Alike (Record.Holds aliasName names)) rest others) :
    Predicate.Alike (Record.Holds aliasName names) (Predicate.conjunction (waiting ++ rest))
      (Predicate.conjunction ([own] ++ others)) := by
  unfold Context.waitingFilter at hwaiting
  split at hwaiting
  · rename_i hempty
    obtain rfl := Except.ok.inj hwaiting
    have hall := allOuter_of_isEmpty filter hempty
    obtain ⟨compiled, hcompiled, hadmits⟩ :=
      compile_of_allOuter context aliases (.root entity) filter hall
    obtain rfl := Except.ok.inj (hcompiled.symm.trans hown)
    intro row other hholds
    obtain ⟨hsame, hfaults⟩ := Predicate.Alike.conjunction hrest row other hholds
    rw [Predicate.admits_conjunction] at hsame
    rw [Predicate.faults_conjunction] at hfaults
    rw [List.nil_append, List.singleton_append, Predicate.admits_conjunction,
      Predicate.faults_conjunction, List.all_cons, Predicate.faultsInAll, hadmits,
      faults_of_allOuter filter hall hown, Bool.true_and, Bool.true_and, Bool.false_or]
    exact ⟨hsame, hfaults⟩
  · obtain ⟨predicate, hpredicate, rfl⟩ := map_eq_ok_iff.mp hwaiting
    rw [compile_qualify entity aliasName filter fun condition hc => (hfilter condition hc).2]
      at hpredicate
    obtain ⟨compiled, hcompiled, rfl⟩ := map_eq_ok_iff.mp hpredicate
    obtain rfl := Except.ok.inj (hcompiled.symm.trans hown)
    have hreads : compiled.ReadsOnly fun key => Record.isQualified key = false := by
      apply compile_readsOnly filter _ hown
      intro condition hcondition
      have hcolumns := hfilter condition hcondition
      refine ⟨hcolumns.1, fun name hname => hname, fun aliasName hmem => ?_⟩
      rw [hcolumns.mentions_eq_nil] at hmem
      contradiction
    have halike := hreads.alike (S := Record.Holds aliasName names) (f := Record.qualify aliasName)
      (g := fun key => key) "" rfl (by
        intro row other hholds key hkey
        have hsame := hholds key (Or.inl hkey)
        rwa [Record.lift, hkey, if_neg Bool.false_ne_true] at hsame)
    rw [Predicate.mapKeys_id] at halike
    exact Predicate.Alike.conjunction (.cons halike hrest)

/-- A link among others, of whose records nothing outside of it speaks, and whose own filters speak
of nothing else. No name has a point in it. -/
structure Secluded (context : Context) (aliases : AliasMap) (first : List PlannedLink)
    (planned : PlannedLink) (last : List PlannedLink) : Prop where
  plain : ∀ name ∈ (aliasesAll (first ++ planned :: last)).map Prod.fst,
    Record.isQualified name = false
  nodup : ((aliasesAll (first ++ planned :: last)).map Prod.fst).Nodup
  sources : ∀ step ∈ stepsAll none (first ++ planned :: last),
    Record.isQualified step.link.source = false
  target : Record.isQualified planned.link.target = false
  records : ∀ right, context.scan planned.link.entity = .ok right →
    ∀ record ∈ right.records, record.Plain
  inside : ∀ step ∈ planned.steps none, ∀ condition ∈ step.link.filter.conditionsWithin,
    condition.Own
  outside : ∀ step ∈ stepsAll none (first ++ last),
    step.link.filter.Reads aliases ((aliasesAll (first ++ last)).map Prod.fst)

namespace Secluded

variable {context : Context} {aliases : AliasMap} {first last children : List PlannedLink}
  {aliasName : String} {link : Link}
  (h : Secluded context aliases first ⟨aliasName, link, children⟩ last)

include h

theorem nested : Nested aliasName ((aliasesAll children).map Prod.fst) := by
  have hsublist : (aliasName :: (aliasesAll children).map Prod.fst).Sublist
      ((aliasesAll (first ++ ⟨aliasName, link, children⟩ :: last)).map Prod.fst) := by
    rw [aliasesAll_append, aliasesAll, PlannedLink.aliases, List.map_append, List.map_append]
    exact (List.sublist_append_left _ _).trans (List.sublist_append_right _ _)
  exact ⟨fun name hname => h.plain name (hsublist.subset hname),
    (List.nodup_cons.mp (h.nodup.sublist hsublist)).1⟩

theorem apart : Apart ((aliasesAll (first ++ last)).map Prod.fst)
    (aliasName :: (aliasesAll children).map Prod.fst) := by
  have hperm : ((aliasesAll (first ++ ⟨aliasName, link, children⟩ :: last)).map Prod.fst).Perm
      ((aliasesAll (first ++ last)).map Prod.fst ++
        aliasName :: (aliasesAll children).map Prod.fst) := by
    simp only [aliasesAll_append, aliasesAll, PlannedLink.aliases, List.map_append, List.map_cons,
      List.append_assoc]
    exact List.perm_append_comm.append_left _
  apply Apart.of_nodup (hperm.nodup_iff.mp h.nodup)
  exact fun name hname => h.plain name (hperm.mem_iff.mpr hname)

theorem carryAll_children {strict : Prop} : CarryAll strict context aliases aliases
    (Record.Holds aliasName ((aliasesAll children).map Prod.fst)) children children := by
  apply carryAll_self_finds h.nested.settled (some aliasName)
  intro step hstep
  constructor
  · rw [← stepsAll_aliasName (some aliasName) children]
    exact List.mem_map_of_mem hstep
  · apply Filter.reads_of_own
    exact h.inside step (by rw [steps]; exact List.mem_cons_of_mem _ hstep)

theorem carryAll_others {strict : Prop} {links : List PlannedLink}
    (hsubset : stepsAll none links ⊆ stepsAll none (first ++ last)) :
    CarryAll strict context aliases aliases
      (Record.AgreesOutside (aliasName :: (aliasesAll children).map Prod.fst)) links links := by
  apply carryAll_self_finds (Settled.outside h.apart) none
  intro step hstep
  refine ⟨?_, h.outside step (hsubset hstep)⟩
  rw [← stepsAll_aliasName none]
  exact List.mem_map_of_mem (hsubset hstep)

theorem source_plain {planned : PlannedLink} (hplanned : planned ∈ children) :
    Record.isQualified planned.link.source = false := by
  refine h.sources ⟨some aliasName, planned.aliasName, planned.link⟩ ?_
  rw [stepsAll_append, stepsAll, steps]
  apply List.mem_append_right
  apply List.mem_append_left
  exact List.mem_cons_of_mem _ (mem_stepsAll _ hplanned)

theorem joinLinks_holds {names others : List String} {faulty targetFaulty : Record → Bool}
    {rows targetRows : Record → List Record} {added targetAdded : List String}
    {waiting targetWaiting : List Predicate}
    (hrows : Pointwise names (fun below deferred =>
      context.joinLinks aliases (some aliasName) below deferred children) faulty rows added waiting)
    (htargets : Pointwise others (fun below deferred =>
      context.joinLinks aliases none below deferred children) targetFaulty targetRows targetAdded
      targetWaiting)
    {row target : Record}
    (hholds : Record.Holds aliasName ((aliasesAll children).map Prod.fst) row target)
    (hrow : faulty row = false) :
    List.Forall₂ (Record.Holds aliasName ((aliasesAll children).map Prod.fst)) (rows row)
        (targetRows target) ∧
      List.Forall₂ (Predicate.Alike (Record.Holds aliasName ((aliasesAll children).map Prod.fst)))
        waiting targetWaiting := by
  apply hrows.alike htargets _ hrow
  apply Context.joinLinks_carries children children h.carryAll_children
    (h.nested.settled.mono (merged_subset children)).likeness
  · intro planned hplanned row other hholds
    have hsource := h.source_plain hplanned
    have hkey := hholds.keyAt? (Or.inl hsource)
    rwa [Record.lift, hsource, if_neg Bool.false_ne_true] at hkey
  · exact ⟨⟨.cons hholds .nil, rfl⟩, .nil⟩

theorem joinLinks_agrees (links : List PlannedLink)
    (hsubset : stepsAll none links ⊆ stepsAll none (first ++ last)) {relation other : Relation}
    {deferred waiting : List Predicate}
    (hrows : Context.Alike
      (Record.AgreesOutside (aliasName :: (aliasesAll children).map Prod.fst)) (relation, deferred)
      (other, waiting)) :
    Carries True (Context.Alike
        (Record.AgreesOutside (aliasName :: (aliasesAll children).map Prod.fst)))
      (context.joinLinks aliases none relation deferred links)
      (context.joinLinks aliases none other waiting links) := by
  have hnames : (mergedAll links).map (·.aliasName) ⊆
      (aliasesAll (first ++ last)).map Prod.fst := by
    apply List.Subset.trans (merged_subset links)
    rw [← stepsAll_aliasName none, ← stepsAll_aliasName none]
    exact List.map_subset _ hsubset
  apply Context.joinLinks_carries links links (h.carryAll_others hsubset)
    ((Settled.outside h.apart).mono hnames).likeness
  · intro planned hplanned row other hagrees
    apply hagrees.keyAt?
    apply Record.outside_of_plain
    have hstep := hsubset (mem_stepsAll none hplanned)
    rw [stepsAll_append] at hstep
    refine h.sources ⟨none, planned.aliasName, planned.link⟩ ?_
    rw [stepsAll_append, stepsAll]
    rcases List.mem_append.mp hstep with hstep | hstep
    · exact List.mem_append_left _ hstep
    · exact List.mem_append_right _ (List.mem_append_right _ hstep)
  · exact hrows

theorem apart_first : Apart ((mergedAll first).map (·.aliasName))
    (aliasName :: (aliasesAll children).map Prod.fst) := by
  refine h.apart.mono ?_ (List.Subset.refl _)
  rw [aliasesAll_append, List.map_append]
  exact List.Subset.trans (merged_subset first) (List.subset_append_left _ _)

theorem apart_last : Apart (aliasName :: (aliasesAll children).map Prod.fst)
    ((mergedAll last).map (·.aliasName)) := by
  refine h.apart.symm.mono (List.Subset.refl _) ?_
  rw [aliasesAll_append, List.map_append]
  exact List.Subset.trans (merged_subset last) (List.subset_append_right _ _)

theorem filters_agree {criteria : Predicate} {relation joined kept rest : Relation}
    {waiting filters : List Predicate}
    (hcriteria : Predicate.Alike
      (Record.AgreesOutside (aliasName :: (aliasesAll children).map Prod.fst)) criteria criteria)
    (hfirst : context.joinLinks aliases none relation [criteria] first = .ok (joined, waiting))
    (hlast : context.joinLinks aliases none kept waiting last = .ok (rest, filters)) :
    List.Forall₂ (Predicate.Alike
        (Record.AgreesOutside (aliasName :: (aliasesAll children).map Prod.fst))) filters filters := by
  have hsame : ∀ relation : Relation, Relation.Alike
      (Record.AgreesOutside (aliasName :: (aliasesAll children).map Prod.fst)) relation relation :=
    fun relation => ⟨List.forall₂_same.mpr fun _ _ _ _ => rfl, rfl⟩
  have hearly := h.joinLinks_agrees first
    (by rw [stepsAll_append]; exact List.subset_append_left _ _)
    ⟨hsame relation, .cons hcriteria .nil⟩
  obtain ⟨_, hearlyOk, hwaiting⟩ := hearly.ok _ hfirst
  obtain rfl := Except.ok.inj (hfirst.symm.trans hearlyOk)
  have hlate := h.joinLinks_agrees last
    (by rw [stepsAll_append]; exact List.subset_append_right _ _)
    ⟨hsame kept, hwaiting.filters⟩
  obtain ⟨_, hlateOk, hfilters⟩ := hlate.ok _ hlast
  obtain rfl := Except.ok.inj (hlast.symm.trans hlateOk)
  exact hfilters.filters

section Rows

variable {record : Record} {right : Relation} {own : Predicate}
  {names others : List String} {faulty targetFaulty lastFaulty : Record → Bool}
  {rows targetRows lastRows : Record → List Record} {added targetAdded lastAdded : List String}
  {inside waiting targetWaiting late deferred : List Predicate}
  (hright : context.scan link.entity = .ok right)
  (hown : link.filter.compile context aliases (.root link.entity) = .ok own)
  (hinside : context.waitingFilter aliases link.filter (.link link.entity aliasName) = .ok inside)
  (hrows : Pointwise ((mergedAll children).map (·.aliasName)) (fun below deferred =>
    context.joinLinks aliases (some aliasName) below deferred children) faulty rows added waiting)
  (htargets : Pointwise ((mergedAll children).map (·.aliasName)) (fun below deferred =>
    context.joinLinks aliases none below deferred children) targetFaulty targetRows targetAdded
    targetWaiting)
  (hlast : Pointwise ((mergedAll last).map (·.aliasName)) (fun below deferred =>
    context.joinLinks aliases none below deferred last) lastFaulty lastRows lastAdded late)
  (hfresh : record.Fresh (aliasName :: (aliasesAll children).map Prod.fst))
  (hnoFault : ∀ row ∈ Relation.joinRow right.records link.source link.target aliasName false record,
    faulty row = false)

include hright hrows htargets hfresh hnoFault

theorem forall₂_holds : List.Forall₂ (Record.Holds aliasName ((aliasesAll children).map Prod.fst))
    ((Relation.joinRow right.records link.source link.target aliasName false record).flatMap rows)
    (Relation.linked (right.records.flatMap targetRows) link.source link.target record) := by
  apply Relation.forall₂_holds h.nested hfresh (h.records right hright) _ _ hnoFault
  · intro target row hrow
    apply htargets.frame target row hrow
    rintro other - name heq
    have hqualified := Record.isQualified_qualify other name
    rw [← heq, h.target] at hqualified
    contradiction
  · exact fun row target hholds hrow => (h.joinLinks_holds hrows htargets hholds hrow).1

include hown hinside

theorem inside_alike (hsome : Relation.joinRow right.records link.source link.target aliasName false
      record ≠ []) :
    Predicate.Alike (Record.Holds aliasName ((aliasesAll children).map Prod.fst))
      (Predicate.conjunction (inside ++ waiting))
      (Predicate.conjunction ([own] ++ targetWaiting)) := by
  rw [Follows.joinRow_inner] at hsome hnoFault
  obtain ⟨target, htarget⟩ := List.exists_mem_of_ne_nil _ (List.map_eq_nil_iff.not.mp hsome)
  have hplain := h.records right hright target (List.mem_filter.mp htarget).1
  have hwaiting := (h.joinLinks_holds hrows htargets (h.nested.holds_merge hfresh hplain)
    (hnoFault _ (List.mem_map_of_mem htarget))).2
  exact Filter.waiting_alike (h.inside ⟨none, aliasName, link⟩ (by rw [steps]; exact List.mem_cons_self))
    hinside hown hwaiting

include hlast

theorem any_admits_eq (hnoLastFault : ∀ row ∈ (Relation.joinRow right.records link.source
      link.target aliasName false record).flatMap rows, lastFaulty row = false)
    (houtside : Predicate.Alike
      (Record.AgreesOutside (aliasName :: (aliasesAll children).map Prod.fst))
      (Predicate.conjunction (deferred ++ late)) (Predicate.conjunction (deferred ++ late))) :
    (((Relation.joinRow right.records link.source link.target aliasName false record).flatMap
        rows).any fun row =>
          (lastRows row).any (Predicate.conjunction (deferred ++ (inside ++ waiting) ++ late)).admits) =
      ((Relation.linked (right.records.flatMap targetRows) link.source link.target record).any
          (Predicate.conjunction ([own] ++ targetWaiting)).admits &&
        (lastRows record).any (Predicate.conjunction (deferred ++ late)).admits) := by
  have hpairs := h.forall₂_holds hright hrows htargets hfresh hnoFault
  by_cases hnone :
      Relation.joinRow right.records link.source link.target aliasName false record = []
  · rw [hnone, List.flatMap_nil, List.forall₂_nil_left_iff] at hpairs
    rw [hnone, hpairs, List.flatMap_nil, List.any_nil, List.any_nil, Bool.false_and]
  · have hframe := ((Pointwise.join right link.source link.target aliasName false []).seq hrows).frame
    apply Relation.any_admits_eq hpairs _ hnoLastFault hlast.frame h.apart_last
    · intro row other hagrees hrow
      refine (hlast.alike hlast (h.joinLinks_agrees last ?_ ⟨⟨.cons hagrees .nil, rfl⟩, .nil⟩) hrow).1
      rw [stepsAll_append]
      exact List.subset_append_right _ _
    · exact h.inside_alike hright hown hinside hrows htargets hfresh hnoFault hnone
    · exact houtside
    · intro row hrow
      exact hframe.agreesOutside (List.cons_subset_cons _ (merged_subset children)) hrow

end Rows

end Secluded

namespace Context

variable {context : Context} {aliases : AliasMap} {first last children : List PlannedLink}
  {aliasName : String} {link : Link} {relation joined : Relation}
  {deferred after : List Predicate}

theorem joinLink_any_rows (hkind : link.kind = .any)
    (h : context.joinLink aliases none relation deferred ⟨aliasName, link, children⟩ =
      .ok (joined, after)) :
    ∃ right own faulty rows added waiting, context.scan link.entity = .ok right ∧
      link.filter.compile context aliases (.root link.entity) = .ok own ∧
      Pointwise ((mergedAll children).map (·.aliasName))
        (fun below deferred => context.joinLinks aliases none below deferred children) faulty rows
        added waiting ∧
      after = deferred ∧
      joined.records = relation.records.filter fun record =>
        (Relation.linked (right.records.flatMap rows) link.source link.target record).any
          (Predicate.conjunction ([own] ++ waiting)).admits := by
  rw [joinLink_existential _ _ _ _ _ _ (by rw [hkind]; rfl)] at h
  obtain ⟨right, hright, h⟩ := bind_eq_ok_iff.mp h
  obtain ⟨own, hown, h⟩ := bind_eq_ok_iff.mp h
  obtain ⟨⟨linked, filters⟩, hlinked, h⟩ := bind_eq_ok_iff.mp h
  obtain ⟨kept, hkept, h⟩ := bind_eq_ok_iff.mp h
  obtain ⟨rfl, rfl⟩ := Prod.mk.inj (Except.ok.inj h)
  obtain ⟨faulty, rows, added, waiting, hrows⟩ := joinLinks_pointwise children hlinked
  obtain ⟨rfl, rfl⟩ := hrows.eq_of_ok hlinked
  rw [Relation.existsJoin_eq_ok hkept, hkind]
  exact ⟨right, own, faulty, rows, added, waiting, hright, hown, hrows, rfl, rfl⟩

theorem joinLink_inner_rows (h : context.joinLink aliases none relation deferred
      ⟨aliasName, link.withKind .inner, children⟩ = .ok (joined, after)) :
    ∃ right own faulty rows added waiting, context.scan link.entity = .ok right ∧
      context.waitingFilter aliases link.filter (.link link.entity aliasName) = .ok own ∧
      Pointwise ((mergedAll children).map (·.aliasName))
        (fun below deferred => context.joinLinks aliases (some aliasName) below deferred children)
        faulty rows added waiting ∧
      (∀ record ∈ relation.records,
        ∀ row ∈ Relation.joinRow right.records link.source link.target aliasName false record,
          faulty row = false) ∧
      after = deferred ++ (own ++ waiting) ∧
      joined.records = relation.records.flatMap fun record =>
        (Relation.joinRow right.records link.source link.target aliasName false record).flatMap
          rows := by
  rw [joinLink_inner _ _ _ _ _ _ rfl] at h
  obtain ⟨right, hright, h⟩ := bind_eq_ok_iff.mp h
  obtain ⟨own, hown, h⟩ := bind_eq_ok_iff.mp h
  obtain ⟨faulty, rows, added, waiting, hrows⟩ := joinLinks_pointwise children h
  rw [hrows.run_eq, Relation.join_eq] at h
  split at h
  · contradiction
  · rename_i hnone
    obtain ⟨rfl, rfl⟩ := Prod.mk.inj (Except.ok.inj h)
    refine ⟨right, own, faulty, rows, added, waiting, hright, hown, hrows, ?_, ?_, ?_⟩
    · intro record hrecord row hrow
      rw [Bool.not_eq_true, List.any_eq_false] at hnone
      simpa using hnone row (List.mem_flatMap.mpr ⟨record, hrecord, hrow⟩)
    · rw [List.append_assoc]
    · exact List.flatMap_assoc

theorem finish_rows {names : List String} {faulty : Record → Bool} {rows : Record → List Record}
    {added : List String} {late : List Predicate} {answer : Relation}
    (hrows : Pointwise names (fun below deferred =>
      context.joinLinks aliases none below deferred last) faulty rows added late)
    (h : context.finish aliases deferred last relation = .ok answer) :
    (∀ record ∈ relation.records, faulty record = false) ∧
      answer.records = relation.records.flatMap fun record =>
        (rows record).filter (Predicate.conjunction (deferred ++ late)).admits := by
  obtain ⟨hnone, rfl⟩ := (Relation.WorksByRows.finish hrows deferred).eq_ok_iff.mp h
  refine ⟨fun record hrecord => ?_, rfl⟩
  have hrecord := List.any_eq_false.mp hnone record hrecord
  rw [Bool.not_eq_true, Bool.or_eq_false_iff] at hrecord
  exact hrecord.1

theorem matchingRows_any_iff {plan : Plan} {criteria : Predicate} {planned : PlannedLink}
    {answer other : Relation} (hlinks : plan.links = first ++ planned :: last)
    (hkind : planned.link.kind = .any) (h : Secluded context plan.aliases first planned last)
    (hcriteria : Predicate.Alike
      (Record.AgreesOutside (planned.aliasName :: (aliasesAll planned.children).map Prod.fst))
      criteria criteria)
    (hroot : ∀ record ∈ (Relation.scan context.store plan.root plan.primaryId).records,
      record.Plain)
    (hany : context.matchingRows plan criteria = .ok answer)
    (hinner : context.matchingRows
      { plan with links := first ++ planned.withKind .inner :: last } criteria = .ok other)
    (identity : String × Uuid) :
    (∃ row ∈ answer.records, row.identity = identity) ↔
      ∃ row ∈ other.records, row.identity = identity := by
  obtain ⟨aliasName, link, children⟩ := planned
  rw [matchingRows_eq_finish, hlinks, finish_append] at hany
  obtain ⟨⟨joined, waiting⟩, hjoined, hany⟩ := bind_eq_ok_iff.mp hany
  simp only [finish_cons] at hany
  obtain ⟨⟨kept, after⟩, hkept, hkeptLast⟩ := bind_eq_ok_iff.mp hany
  rw [matchingRows_eq_finish, aliases_withKind hlinks, finish_append, hjoined, ok_bind] at hinner
  simp only [finish_cons] at hinner
  obtain ⟨⟨merged, filters⟩, hmerged, hmergedLast⟩ := bind_eq_ok_iff.mp hinner
  obtain ⟨right, own, targetFaulty, targetRows, _, targetWaiting, hright, hown, htargets, rfl,
    hkeptRows⟩ := joinLink_any_rows hkind hkept
  obtain ⟨_, inside, faulty, rows, _, nestedWaiting, hright', hinside, hnested, hnoFault, rfl,
    hmergedRows⟩ := joinLink_inner_rows hmerged
  obtain rfl := Except.ok.inj (hright.symm.trans hright')
  obtain ⟨⟨rest, restFilters⟩, hrest, -⟩ := bind_eq_ok_iff.mp hkeptLast
  obtain ⟨lastFaulty, lastRows, _, late, hlast⟩ := joinLinks_pointwise last hrest
  obtain ⟨-, hanswer⟩ := finish_rows hlast hkeptLast
  obtain ⟨hnoLastFault, hother⟩ := finish_rows hlast hmergedLast
  obtain ⟨firstFaulty, firstRows, _, early, hfirst⟩ := joinLinks_pointwise first hjoined
  dsimp only at hanswer hother
  rw [hanswer, hother, hkeptRows, hmergedRows, List.flatMap_assoc, ← Relation.flatMap_ite,
    Relation.exists_identity_iff, Relation.exists_identity_iff]
  · apply exists_congr
    intro record
    apply and_congr_right
    intro hrecord
    apply and_congr_right
    intro _
    have hfresh : record.Fresh (aliasName :: (aliasesAll children).map Prod.fst) := by
      obtain ⟨rfl, -⟩ := hfirst.eq_of_ok hjoined
      obtain ⟨scanned, hscanned, hrow⟩ := List.mem_flatMap.mp hrecord
      exact hfirst.frame.fresh h.apart_first hrow ((hroot scanned hscanned).fresh _)
    have hfilters := h.filters_agree hcriteria hjoined hrest
    obtain ⟨-, rfl⟩ := hlast.eq_of_ok hrest
    have heq := h.any_admits_eq hright hown hinside hnested htargets hlast hfresh
      (hnoFault record hrecord) (fun row hrow => hnoLastFault row (by
        rw [hmergedRows]
        exact List.mem_flatMap.mpr ⟨record, hrecord, hrow⟩))
      (Predicate.Alike.conjunction hfilters)
    rw [Relation.exists_mem_flatMap_filter, heq, Bool.and_eq_true]
    split
    · rename_i hkeep
      rw [Relation.exists_mem_filter]
      exact (and_iff_right hkeep).symm
    · rename_i hdrop
      constructor
      · rintro ⟨row, hrow⟩
        contradiction
      · exact fun hboth => absurd hboth.1 hdrop
  · intro record row hrow
    obtain ⟨middle, hmiddle, hrow⟩ := List.mem_flatMap.mp hrow
    obtain ⟨joined, hjoined, hmiddle⟩ := List.mem_flatMap.mp hmiddle
    rw [hlast.identity middle row (List.mem_filter.mp hrow).1, hnested.identity joined middle hmiddle,
      Relation.joinRow_identity hjoined]
  · intro record row hrow
    split at hrow
    · exact hlast.identity record row (List.mem_filter.mp hrow).1
    · contradiction

end Context

end RecordQuery
