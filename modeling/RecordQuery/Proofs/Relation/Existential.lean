import RecordQuery.Proofs.Predicate.Connectives
import RecordQuery.Proofs.Relation.Linking

/-!
Existential links. The links inside of one are joined before it is decided what stays, so that the
decision is about the rows that come of the target records and not about these records: `any` and
`notAny` ask for a target record that matches, but `all` and `notAll` for a row that fails.
-/

namespace RecordQuery

theorem Record.linksTo_congr {row target : Record} {column : String}
    (h : row.get? column = target.get? column) (record : Record) (leftColumn : String) :
    record.linksTo row leftColumn column = record.linksTo target leftColumn column := by
  unfold linksTo keyAt?
  rw [h]

def Link.correlated (link : Link) (parent? : Option String) (right : Relation) (row : Record) :
    List Record :=
  Relation.linked right.records (Accessor.qualifiedBy parent? link.source) link.target row

section Targets

variable (context : Context) (aliases : AliasMap) (children : List PlannedLink) (own : Predicate)

/-- What a target record becomes under the links inside: rows, and the filters for them. -/
def Context.expand (target : Record) : Except Error (Relation × List Predicate) :=
  context.joinLinks aliases none (Relation.ofRecords [target]) [own] children

def Context.Matches (target : Record) : Prop :=
  ∃ rows filters, context.expand aliases children own target = .ok (rows, filters) ∧
    ∃ row ∈ rows.records, ∀ filter ∈ filters, filter.admits row = true

def Context.Fails (target : Record) : Prop :=
  ∃ rows filters, context.expand aliases children own target = .ok (rows, filters) ∧
    ∃ row ∈ rows.records, ∃ filter ∈ filters, filter.admits row = false

def Context.Offers (link : Link) (parent? : Option String) (record : Record) (passes : Bool)
    (target : Record) : Prop :=
  ∃ rows filters, context.expand aliases children own target = .ok (rows, filters) ∧
    ∃ row ∈ link.correlated parent? rows record, filters.all (·.admits row) = passes

variable {context aliases children own} {link : Link} {parent? : Option String}
  {record target : Record} {passes : Bool} {rows : Relation} {filters : List Predicate}

theorem Context.offers_iff (h : context.expand aliases children own target = .ok (rows, filters)) :
    context.Offers aliases children own link parent? record passes target ↔
      ∃ row ∈ link.correlated parent? rows record,
        (Predicate.conjunction filters).admits row = passes := by
  simp only [Predicate.admits_conjunction]
  constructor
  · rintro ⟨found, others, hfound, hrow⟩
    obtain ⟨rfl, rfl⟩ := Prod.mk.inj (Except.ok.inj (hfound.symm.trans h))
    exact hrow
  · intro hrow
    exact ⟨rows, filters, h, hrow⟩

theorem Context.expand_frame {column : String}
    (hcolumn : ∀ merged ∈ PlannedLink.mergedAll children, ∀ name,
      column ≠ Record.qualify merged.aliasName name)
    (h : context.expand aliases children own target = .ok (rows, filters)) :
    ∀ row ∈ rows.records, row.get? column = target.get? column := by
  obtain ⟨become, added, waiting, hrows⟩ := joinLinks_rowWise children h
  obtain ⟨rfl, -⟩ := hrows.eq_of_ok h
  intro row hrow
  obtain ⟨origin, horigin, hrow⟩ := List.mem_flatMap.mp hrow
  rw [List.mem_singleton.mp horigin] at hrow
  refine hrows.frame target row hrow column ?_
  intro aliasName halias
  obtain ⟨merged, hmerged, rfl⟩ := List.mem_map.mp halias
  exact hcolumn merged hmerged

theorem Link.mem_correlated_expand
    (hcolumn : ∀ merged ∈ PlannedLink.mergedAll children, ∀ name,
      link.target ≠ Record.qualify merged.aliasName name)
    (h : context.expand aliases children own target = .ok (rows, filters)) {right : Relation}
    (hright : target ∈ right.records) {row : Record} :
    row ∈ link.correlated parent? rows record ↔
      target ∈ link.correlated parent? right record ∧ row ∈ rows.records := by
  simp only [correlated, Relation.linked, List.mem_filter]
  constructor
  · rintro ⟨hrow, hlinks⟩
    rw [Record.linksTo_congr (Context.expand_frame hcolumn h row hrow)] at hlinks
    exact ⟨⟨hright, hlinks⟩, hrow⟩
  · rintro ⟨⟨-, hlinks⟩, hrow⟩
    rw [← Record.linksTo_congr (Context.expand_frame hcolumn h row hrow)] at hlinks
    exact ⟨hrow, hlinks⟩

variable {right : Relation}

theorem Context.exists_offers_true_iff
    (hcolumn : ∀ merged ∈ PlannedLink.mergedAll children, ∀ name,
      link.target ≠ Record.qualify merged.aliasName name) :
    (∃ target ∈ right.records, context.Offers aliases children own link parent? record true target) ↔
      ∃ target ∈ link.correlated parent? right record,
        context.Matches aliases children own target := by
  constructor
  · rintro ⟨target, hright, rows, filters, h, row, hrow, hpasses⟩
    obtain ⟨hlinked, hrow⟩ := (Link.mem_correlated_expand hcolumn h hright).mp hrow
    exact ⟨target, hlinked, rows, filters, h, row, hrow, List.all_eq_true.mp hpasses⟩
  · rintro ⟨target, hlinked, rows, filters, h, row, hrow, hpasses⟩
    have hright := (List.mem_filter.mp hlinked).1
    have hrow := (Link.mem_correlated_expand hcolumn h hright).mpr ⟨hlinked, hrow⟩
    exact ⟨target, hright, rows, filters, h, row, hrow, List.all_eq_true.mpr hpasses⟩

theorem Context.exists_offers_false_iff
    (hcolumn : ∀ merged ∈ PlannedLink.mergedAll children, ∀ name,
      link.target ≠ Record.qualify merged.aliasName name) :
    (∃ target ∈ right.records, context.Offers aliases children own link parent? record false target) ↔
      ∃ target ∈ link.correlated parent? right record,
        context.Fails aliases children own target := by
  simp only [Offers, Fails, List.all_eq_false, Bool.not_eq_true]
  constructor
  · rintro ⟨target, hright, rows, filters, h, row, hrow, hfails⟩
    obtain ⟨hlinked, hrow⟩ := (Link.mem_correlated_expand hcolumn h hright).mp hrow
    exact ⟨target, hlinked, rows, filters, h, row, hrow, hfails⟩
  · rintro ⟨target, hlinked, rows, filters, h, row, hrow, hfails⟩
    have hright := (List.mem_filter.mp hlinked).1
    have hrow := (Link.mem_correlated_expand hcolumn h hright).mpr ⟨hlinked, hrow⟩
    exact ⟨target, hright, rows, filters, h, row, hrow, hfails⟩

end Targets

/-- Whether an existential link should keep a row, as its kind reads, by the target records that
match. -/
def JoinKind.Wants (kind : JoinKind) (correlated : List Record) (matches_ : Record → Prop) : Prop :=
  match kind with
  | .any => ∃ target ∈ correlated, matches_ target
  | .notAny => ¬ ∃ target ∈ correlated, matches_ target
  | .all => ∀ target ∈ correlated, matches_ target
  | .notAll => ∃ target ∈ correlated, ¬ matches_ target
  | .inner | .leftOuter => True

/-- Whether an existential link does keep a row, by the target records with a row that passes and
those with one that fails. -/
def JoinKind.Gets (kind : JoinKind) (targets : List Record) (passing failing : Record → Prop) :
    Prop :=
  match kind with
  | .any => ∃ target ∈ targets, passing target
  | .notAny => ¬ ∃ target ∈ targets, passing target
  | .all => ¬ ∃ target ∈ targets, failing target
  | .notAll => ∃ target ∈ targets, failing target
  | .inner | .leftOuter => True

theorem JoinKind.gets_congr {kind : JoinKind} {targets : List Record}
    {passing failing passing' failing' : Record → Prop}
    (hpassing : ∀ target ∈ targets, passing target ↔ passing' target)
    (hfailing : ∀ target ∈ targets, failing target ↔ failing' target) :
    kind.Gets targets passing failing ↔ kind.Gets targets passing' failing' := by
  have hsome : ∀ {p q : Record → Prop}, (∀ target ∈ targets, p target ↔ q target) →
      ((∃ target ∈ targets, p target) ↔ ∃ target ∈ targets, q target) := by
    intro p q hpq
    exact exists_congr fun target => and_congr_right (hpq target)
  cases kind with
  | inner => exact Iff.rfl
  | leftOuter => exact Iff.rfl
  | any => exact hsome hpassing
  | notAny => exact not_congr (hsome hpassing)
  | all => exact not_congr (hsome hfailing)
  | notAll => exact hsome hfailing

theorem JoinKind.gets_iff_wants {kind : JoinKind} (hkind : kind.isExistential = true)
    (targets correlated : List Record) (passing failing matches_ : Record → Prop) :
    (kind.Gets targets passing failing ↔ kind.Wants correlated matches_) ↔
      (kind = .any ∨ kind = .notAny →
        ((∃ target ∈ targets, passing target) ↔ ∃ target ∈ correlated, matches_ target)) ∧
      (kind = .all ∨ kind = .notAll →
        ((∃ target ∈ targets, failing target) ↔ ∃ target ∈ correlated, ¬ matches_ target)) := by
  cases kind with
  | inner => contradiction
  | leftOuter => contradiction
  | any => simp [Gets, Wants]
  | notAny =>
    simp only [Gets, Wants, or_true, true_implies, reduceCtorEq, or_self, false_implies, and_true]
    exact not_iff_not
  | all =>
    have hall : (∀ target ∈ correlated, matches_ target) ↔
        ¬ ∃ target ∈ correlated, ¬ matches_ target := by
      simp
    simp only [Gets, Wants, hall, true_or, true_implies, reduceCtorEq, or_self, false_implies,
      true_and]
    exact not_iff_not
  | notAll => simp [Gets, Wants]

namespace Relation

theorem existsJoin_eq_ok {left right kept : Relation} {kind : JoinKind}
    {leftColumn rightColumn : String} {predicate : Predicate}
    (h : left.existsJoin right kind leftColumn rightColumn predicate = .ok kept) :
    kept = left.withRecords (left.records.filter fun record =>
      keeps kind predicate (linked right.records leftColumn rightColumn record)) := by
  rw [existsJoin_eq] at h
  split at h
  · contradiction
  · exact (Except.ok.inj h).symm

theorem keeps_iff {kind : JoinKind} (hkind : kind.isExistential = true) (predicate : Predicate)
    (targets : List Record) (rows : Record → List Record) :
    keeps kind predicate (targets.flatMap rows) = true ↔
      kind.Gets targets (fun target => ∃ row ∈ rows target, predicate.admits row = true)
        (fun target => ∃ row ∈ rows target, predicate.admits row = false) := by
  cases kind with
  | inner => contradiction
  | leftOuter => contradiction
  | any => simp only [keeps, JoinKind.Gets, List.any_flatMap, List.any_eq_true]
  | notAny =>
    simp only [keeps, JoinKind.Gets, List.any_flatMap, List.any_eq_true, Bool.not_eq_true',
      Bool.eq_false_iff, ne_eq]
  | all => simp [keeps, JoinKind.Gets]
  | notAll => simp [keeps, JoinKind.Gets]

end Relation

namespace Context

variable {context : Context} {aliases : AliasMap} {parent? : Option String}
  {relation kept : Relation} {deferred after : List Predicate} {aliasName : String} {link : Link}
  {children : List PlannedLink}

theorem joinLink_gets (hkind : link.kind.isExistential = true)
    (h : context.joinLink aliases parent? relation deferred ⟨aliasName, link, children⟩ =
      .ok (kept, after)) :
    ∃ right own keep, context.scan link.entity = .ok right ∧
      link.filter.compile context aliases (.root link.entity) = .ok own ∧
      (∀ target ∈ right.records, ∃ answer,
        context.expand aliases children own target = .ok answer) ∧
      kept = relation.withRecords (relation.records.filter keep) ∧ after = deferred ∧
      ∀ record, keep record = true ↔ link.kind.Gets right.records
        (context.Offers aliases children own link parent? record true)
        (context.Offers aliases children own link parent? record false) := by
  rw [joinLink_existential _ _ _ _ _ _ hkind] at h
  obtain ⟨right, hright, h⟩ := bind_eq_ok_iff.mp h
  obtain ⟨own, hown, h⟩ := bind_eq_ok_iff.mp h
  obtain ⟨⟨linked, inner⟩, hlinked, h⟩ := bind_eq_ok_iff.mp h
  obtain ⟨result, hresult, h⟩ := bind_eq_ok_iff.mp h
  obtain ⟨rfl, rfl⟩ := Prod.mk.inj (Except.ok.inj h)
  obtain ⟨rows, added, waiting, hrows⟩ := joinLinks_rowWise children hlinked
  obtain ⟨rfl, rfl⟩ := hrows.eq_of_ok hlinked
  have hexpand : ∀ target ∈ right.records, context.expand aliases children own target =
      .ok (⟨rows target, added⟩, [own] ++ waiting) := by
    intro target hmem
    have hrun := hrows.run_eq (Relation.ofRecords [target]) [own]
      (by simpa [Relation.ofRecords] using hmem)
    simpa [Relation.ofRecords, expand] using hrun
  refine ⟨right, own, _, hright, hown, fun target hmem => ⟨_, hexpand target hmem⟩,
    Relation.existsJoin_eq_ok hresult, rfl, ?_⟩
  intro record
  -- The keys are compared in the rows, not in the target records that they come of.
  rw [Relation.linked, List.filter_flatMap, Relation.keeps_iff hkind]
  apply JoinKind.gets_congr
  · exact fun target hmem => (offers_iff (hexpand target hmem)).symm
  · exact fun target hmem => (offers_iff (hexpand target hmem)).symm

/-- What an existential link keeps is what its kind asks for just if, under `any` and `notAny`, a
target record offers a row that passes when one with the key matches, and under `all` and `notAll`
one offers a row that fails when one with the key does not match. The former is so unless a link
inside writes to the column of the key; of the latter a target record may do both, and one that
becomes no row does neither. -/
theorem joinLink_wants_iff (hkind : link.kind.isExistential = true)
    (h : context.joinLink aliases parent? relation deferred ⟨aliasName, link, children⟩ =
      .ok (kept, after)) :
    ∃ right own keep, context.scan link.entity = .ok right ∧
      link.filter.compile context aliases (.root link.entity) = .ok own ∧
      (∀ target ∈ right.records, ∃ answer,
        context.expand aliases children own target = .ok answer) ∧
      kept = relation.withRecords (relation.records.filter keep) ∧ after = deferred ∧
      (∀ record,
        (keep record = true ↔ link.kind.Wants (link.correlated parent? right record)
          (context.Matches aliases children own)) ↔
        (link.kind = .any ∨ link.kind = .notAny →
          ((∃ target ∈ right.records,
              context.Offers aliases children own link parent? record true target) ↔
            ∃ target ∈ link.correlated parent? right record,
              context.Matches aliases children own target)) ∧
        (link.kind = .all ∨ link.kind = .notAll →
          ((∃ target ∈ right.records,
              context.Offers aliases children own link parent? record false target) ↔
            ∃ target ∈ link.correlated parent? right record,
              ¬ context.Matches aliases children own target))) ∧
      ((∀ merged ∈ PlannedLink.mergedAll children, ∀ name,
          link.target ≠ Record.qualify merged.aliasName name) →
        ∀ record,
          ((∃ target ∈ right.records,
              context.Offers aliases children own link parent? record true target) ↔
            ∃ target ∈ link.correlated parent? right record,
              context.Matches aliases children own target) ∧
          ((∃ target ∈ right.records,
              context.Offers aliases children own link parent? record false target) ↔
            ∃ target ∈ link.correlated parent? right record,
              context.Fails aliases children own target)) := by
  obtain ⟨right, own, keep, hright, hown, hexpand, hkept, hafter, hgets⟩ := joinLink_gets hkind h
  refine ⟨right, own, keep, hright, hown, hexpand, hkept, hafter, ?_, ?_⟩
  · intro record
    rw [hgets record]
    exact JoinKind.gets_iff_wants hkind _ _ _ _ _
  · intro hcolumn record
    exact ⟨exists_offers_true_iff hcolumn, exists_offers_false_iff hcolumn⟩

def idleContact : Context where
  store := Store.ofList [⟨"contact", .ofNat 2, .ofList [("accountid", .uuid (.ofNat 1))]⟩]
  catalog := (Catalog.empty.withEntity (.ofName "task")).withEntity
    ((EntityMetadata.ofName "contact").withCode "accountid" .lookup)
  caller := default
  now := default
  pageSize := 0

def toContacts (kind : JoinKind) : Link :=
  ⟨"accountid", "contact", "accountid", kind, none, .none, .all, [], []⟩

def toTasks : PlannedLink :=
  ⟨"task", ⟨"contactid", "task", "taskid", .inner, none, .none, .all, [], []⟩, []⟩

def anAccount : Record := ⟨"account", .ofNat 1, .ofList [("accountid", .uuid (.ofNat 1))]⟩

theorem joinLink_wants_iff_any :
    (toContacts .any).kind.isExistential = true ∧
      idleContact.joinLink [] none (.ofRecords [anAccount]) [] ⟨"contact", toContacts .any, [toTasks]⟩
        = .ok (.ofRecords [], []) ∧
      ∃ right own, idleContact.scan "contact" = .ok right ∧
        ¬ ∃ target ∈ (toContacts .any).correlated none right anAccount,
          idleContact.Matches [] [toTasks] own target := by
  have hcolumn : ∀ merged ∈ PlannedLink.mergedAll [toTasks], ∀ name,
      (toContacts .any).target ≠ Record.qualify merged.aliasName name := by
    intro merged _ name heq
    have hqualified := Record.isQualified_qualify merged.aliasName name
    rw [← heq] at hqualified
    exact absurd hqualified (by decide)
  have hjoin : idleContact.joinLink [] none (.ofRecords [anAccount]) []
      ⟨"contact", toContacts .any, [toTasks]⟩ = .ok (.ofRecords [], []) := rfl
  refine ⟨rfl, hjoin, ?_⟩
  obtain ⟨right, own, keep, hright, -, -, hkept, -, hwants, hoffers⟩ := joinLink_wants_iff rfl hjoin
  refine ⟨right, own, hright, ?_⟩
  have hdropped : keep anAccount ≠ true := by
    intro hkeep
    have hrecords := congrArg Relation.records hkept
    simp [Relation.ofRecords, Relation.withRecords, hkeep] at hrecords
  have hany := (hwants anAccount).mpr
    ⟨fun _ => (hoffers hcolumn anAccount).1, by simp [toContacts]⟩
  exact fun hsome => hdropped (hany.mpr hsome)

theorem exists_joinLink_not_wants :
    ¬ ∀ (context : Context) (aliases : AliasMap) (parent? : Option String)
        (relation kept : Relation) (deferred after : List Predicate) (aliasName : String)
        (link : Link) (children : List PlannedLink), link.kind.isExistential = true →
      context.joinLink aliases parent? relation deferred ⟨aliasName, link, children⟩ =
        .ok (kept, after) →
      ∃ right own keep, context.scan link.entity = .ok right ∧
        link.filter.compile context aliases (.root link.entity) = .ok own ∧
        kept = relation.withRecords (relation.records.filter keep) ∧
        ∀ row, keep row = true ↔ link.kind.Wants (link.correlated parent? right row)
          (context.Matches aliases children own) := by
  intro h
  have hjoin : idleContact.joinLink [] none (.ofRecords [anAccount]) []
      ⟨"contact", toContacts .all, [toTasks]⟩ = .ok (.ofRecords [anAccount], []) := rfl
  obtain ⟨right, own, keep, hright, -, hkept, hwants⟩ := h _ _ _ _ _ _ _ _ _ _ rfl hjoin
  have hkeep : keep anAccount = true := by
    by_contra hnot
    have hrecords := congrArg Relation.records hkept
    simp [Relation.ofRecords, Relation.withRecords, hnot] at hrecords
  have hall := (hwants anAccount).mp hkeep
  obtain rfl : Relation.scan idleContact.store "contact" "contactid" = right := Except.ok.inj hright
  obtain ⟨rows, filters, hexpand, row, hrow, -⟩ := hall
    (Relation.identified "contactid"
      ⟨"contact", .ofNat 2, .ofList [("accountid", .uuid (.ofNat 1))]⟩) (List.mem_singleton_self _)
  obtain ⟨rfl, -⟩ : ⟨[], ["task"]⟩ = rows ∧ [own] = filters := Prod.mk.inj (Except.ok.inj hexpand)
  contradiction

end Context

end RecordQuery
