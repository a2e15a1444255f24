import RecordQuery.Proofs.Predicate.Reading
import RecordQuery.Proofs.Relation.SemiJoin

namespace RecordQuery

open Record (isQualified qualify)

def Record.Lacks (record : Record) (aliasName : String) : Prop :=
  ∀ name, isQualified name = false → record.get? (qualify aliasName name) = none

section Frame

variable {names : List String} {rows : Record → List Record} {aliasName name : String}
  {record row : Record} (hframe : Frame names rows) (halias : isQualified aliasName = false)
  (hnot : aliasName ∉ names) (hrow : row ∈ rows record)

include hframe halias hnot hrow

theorem Frame.get?_qualify (hname : isQualified name = false) :
    row.get? (qualify aliasName name) = record.get? (qualify aliasName name) := by
  apply hframe record row hrow
  intro other hother inner heq
  obtain rfl := Record.qualify_left_of_plain halias hname heq
  exact hnot hother

theorem Frame.lacks (hlacks : record.Lacks aliasName) : row.Lacks aliasName := by
  intro name hname
  rw [hframe.get?_qualify halias hnot hrow hname]
  exact hlacks name hname

end Frame

namespace Accessor

variable {catalog : Catalog} {entity name aliasName : String} {column : ResolvedColumn}
  {row : Record} (hresolve : catalog.resolve entity name = .ok column)

include hresolve

theorem read?_of_held {value : Value}
    (hvalue : row.getUnwrapped? (qualify aliasName name) = some value) :
    (ofColumn (some aliasName) column).read? row = some value := by
  rw [← Catalog.resolve_name hresolve] at hvalue
  unfold read?
  rw [show (ofColumn (some aliasName) column).key = qualify aliasName column.name from rfl, hvalue]

theorem read?_of_lacks (hname : isQualified name = false) (hlacks : row.Lacks aliasName) :
    (ofColumn (some aliasName) column).read? row = none := by
  have hnone : ∀ {name : String}, isQualified name = false →
      row.getUnwrapped? (qualify aliasName name) = none := by
    intro name hname
    rw [Record.getUnwrapped?, hlacks name hname, Option.map_none]
  have hkey : row.getUnwrapped? (ofColumn (some aliasName) column).key = none := by
    rw [show (ofColumn (some aliasName) column).key = qualify aliasName column.name from rfl,
      Catalog.resolve_name hresolve]
    exact hnone hname
  unfold read?
  rw [hkey]
  cases hsource : column.source with
  | direct => simp [ofColumn, hsource]
  | nameOf base =>
    -- what is shown of a reference is its name, which stands without a point as the column does
    obtain ⟨-, hchars⟩ := Catalog.resolve_nameOf hresolve hsource
    have hbase : isQualified base = false := by
      apply Record.isQualified_of_sublist _ hname
      rw [hchars]
      exact List.sublist_append_left _ _
    simp [ofColumn, hsource, qualifiedBy, hnone hbase]

end Accessor

def Condition.unmatched (aliasName primaryId : String) : Condition :=
  ⟨primaryId, some aliasName, .null false, [], none, false⟩

theorem Condition.compile_unmatched {context : Context} {aliases : AliasMap} {scope : Scope}
    {aliasName primaryId entity : String} {predicate : Predicate}
    (hentity : aliases.entity aliasName = .ok entity)
    (h : (unmatched aliasName primaryId).compile context aliases scope = .ok predicate) :
    ∃ column, context.catalog.resolve entity primaryId = .ok column ∧
      predicate = .isNull (Accessor.ofColumn (some aliasName) column) false := by
  have haliased : scope.aliased aliases (some aliasName) = .ok (.link entity aliasName) := by
    rw [Scope.aliased, hentity]
    rfl
  unfold compile at h
  simp only [unmatched, Bool.false_eq_true, if_false, haliased, ok_bind] at h
  obtain ⟨accessor, haccessor, h⟩ := bind_eq_ok_iff.mp h
  obtain ⟨column, hcolumn, rfl⟩ := map_eq_ok_iff.mp haccessor
  refine ⟨column, hcolumn, ?_⟩
  have hdate : (Operator.null false).isDate = false := rfl
  simp only [compileOperands, Value.flattenAll, List.length_nil, Operator.arity, Arity.accepts, hdate,
    Bool.not_true, Bool.false_and, Bool.false_eq_true, if_false] at h
  split at h
  · exact (Except.ok.inj h).symm
  · obtain ⟨derived?, hderived, h⟩ := bind_eq_ok_iff.mp h
    obtain ⟨today, -, hderived⟩ := bind_eq_ok_iff.mp hderived
    obtain rfl := Except.ok.inj hderived
    exact (Except.ok.inj h).symm

namespace Relation

section JoinRow

variable {right : List Record} {leftColumn rightColumn aliasName : String} {own : Predicate}
  {record : Record}

theorem linked_filter (right : List Record) (own : Predicate) (leftColumn rightColumn : String)
    (record : Record) :
    linked (right.filter own.admits) leftColumn rightColumn record =
      (linked right leftColumn rightColumn record).filter own.admits := by
  unfold linked
  rw [List.filter_filter, List.filter_filter]
  exact List.filter_congr fun target _ => Bool.and_comm _ _

theorem joinRow_of_keeps
    (h : keeps .notAny own (linked right leftColumn rightColumn record) = true) :
    joinRow (right.filter own.admits) leftColumn rightColumn aliasName true record = [record] := by
  have hnone : (linked right leftColumn rightColumn record).filter own.admits = [] := by
    rw [keeps, Bool.not_eq_true', List.any_eq_false] at h
    exact List.filter_eq_nil_iff.mpr h
  unfold joinRow
  rw [linked_filter, hnone]
  rfl

theorem exists_merge_of_not_keeps
    (h : keeps .notAny own (linked right leftColumn rightColumn record) = false) :
    ∀ row ∈ joinRow (right.filter own.admits) leftColumn rightColumn aliasName true record,
      ∃ target ∈ right, row = record.merge aliasName target := by
  intro row hrow
  unfold joinRow at hrow
  rw [linked_filter] at hrow
  split at hrow
  · rename_i hnone
    rw [keeps, Bool.not_eq_false', List.any_eq_true] at h
    obtain ⟨target, htarget, hadmits⟩ := h
    exact absurd hadmits (List.filter_eq_nil_iff.mp hnone target htarget)
  · obtain ⟨target, htarget, rfl⟩ := List.mem_map.mp hrow
    have hlinked := (List.mem_filter.mp htarget).1
    exact ⟨target, (List.mem_filter.mp hlinked).1, rfl⟩

theorem flatMap_joinRow_filter {rows : Record → List Record} {all rest : Record → Bool}
    (hmatched : ∀ target ∈ right, ∀ row ∈ rows (record.merge aliasName target), all row = false)
    (hunmatched : ∀ row ∈ rows record, all row = rest row) :
    (joinRow (right.filter own.admits) leftColumn rightColumn aliasName true record).flatMap
        (fun joined => (rows joined).filter all) =
      if keeps .notAny own (linked right leftColumn rightColumn record) then
        (rows record).filter rest
      else [] := by
  cases hkeep : keeps .notAny own (linked right leftColumn rightColumn record) with
  | true =>
    rw [joinRow_of_keeps hkeep, List.flatMap_singleton, if_pos rfl]
    exact List.filter_congr hunmatched
  | false =>
    rw [if_neg Bool.false_ne_true, List.flatMap_eq_nil_iff]
    intro joined hjoined
    obtain ⟨target, htarget, rfl⟩ := exists_merge_of_not_keeps hkeep joined hjoined
    rw [List.filter_eq_nil_iff]
    intro row hrow
    simp [hmatched target htarget row hrow]

end JoinRow

end Relation

namespace Context

open PlannedLink

variable {context : Context} {aliases : AliasMap} {aliasName primaryId : String} {link : Link}
  {relation joined : Relation} {deferred after : List Predicate}

theorem joinLink_leftOuter_rows (hkind : link.kind = .leftOuter)
    (h : context.joinLink aliases none relation deferred ⟨aliasName, link, []⟩ =
      .ok (joined, after)) :
    ∃ right own waiting, context.scan link.entity = .ok right ∧
      link.filter.compile context aliases (.root link.entity) = .ok own ∧
      after = deferred ++ waiting ∧
      (∀ predicate ∈ waiting, ∀ row, predicate.admits row = true) ∧
      joined.records = relation.records.flatMap (Relation.joinRow
        (right.records.filter own.admits) link.source link.target aliasName true) := by
  rw [joinLink_leftOuter _ _ _ _ _ _ hkind] at h
  obtain ⟨right, hright, h⟩ := bind_eq_ok_iff.mp h
  obtain ⟨own, hown, h⟩ := bind_eq_ok_iff.mp h
  obtain ⟨admitted, hadmitted, h⟩ := bind_eq_ok_iff.mp h
  obtain ⟨waiting, hwaiting, h⟩ := bind_eq_ok_iff.mp h
  obtain ⟨rfl, rfl⟩ := Prod.mk.inj (Except.ok.inj h)
  refine ⟨right, own, waiting, hright, hown, rfl, ?_, ?_⟩
  · unfold waitingFilter at hwaiting
    split at hwaiting
    · obtain rfl := Except.ok.inj hwaiting
      simp
    · obtain ⟨predicate, hpredicate, rfl⟩ := map_eq_ok_iff.mp hwaiting
      obtain ⟨relaxed, hrelaxed, hadmits⟩ := Filter.compile_of_allOuter context aliases
        (.link link.entity aliasName) link.filter.relaxed link.filter.allOuter_relaxed
      obtain rfl := Except.ok.inj (hrelaxed.symm.trans hpredicate)
      simpa using hadmits
  · rw [← Relation.filter_records hadmitted, Relation.join_eq]
    rfl

theorem joinLink_notAny_rows (hkind : link.kind = .notAny)
    (h : context.joinLink aliases none relation deferred ⟨aliasName, link, []⟩ =
      .ok (joined, after)) :
    ∃ right own, context.scan link.entity = .ok right ∧
      link.filter.compile context aliases (.root link.entity) = .ok own ∧ after = deferred ∧
      joined.records = relation.records.filter fun record =>
        Relation.keeps .notAny own
          (Relation.linked right.records link.source link.target record) := by
  rw [joinLink_existential _ _ _ _ _ _ (by rw [hkind]; rfl)] at h
  obtain ⟨right, hright, h⟩ := bind_eq_ok_iff.mp h
  obtain ⟨own, hown, h⟩ := bind_eq_ok_iff.mp h
  obtain ⟨⟨linked, inner⟩, hlinked, h⟩ := bind_eq_ok_iff.mp h
  obtain ⟨rfl, rfl⟩ := Prod.mk.inj (Except.ok.inj hlinked)
  obtain ⟨kept, hkept, h⟩ := bind_eq_ok_iff.mp h
  obtain ⟨rfl, rfl⟩ := Prod.mk.inj (Except.ok.inj h)
  refine ⟨right, own, hright, hown, rfl, ?_⟩
  have hsame : ∀ targets, Relation.keeps .notAny (Predicate.conjunction [own]) targets =
      Relation.keeps .notAny own targets := by
    intro targets
    have hadmits : (Predicate.conjunction [own]).admits = own.admits := by
      funext row
      simp [Predicate.admits_conjunction]
    rw [Relation.keeps, Relation.keeps, hadmits]
  rw [Relation.existsJoin_eq_ok hkept, hkind]
  simp only [hsame]
  rfl

structure Singled (context : Context) (first : List PlannedLink) (aliasName : String) (link : Link)
    (last : List PlannedLink) (primaryId : String) : Prop where
  plain : isQualified aliasName = false
  notFirst : aliasName ∉ (mergedAll first).map (·.aliasName)
  notLast : aliasName ∉ (mergedAll last).map (·.aliasName)
  known : context.catalog.primaryId link.entity = .ok primaryId
  plainId : isQualified primaryId = false
  held : ∀ record ∈ context.store.records link.entity,
    record.getUnwrapped? primaryId ≠ some .null

namespace Singled

variable {first last : List PlannedLink} {column : ResolvedColumn} {record : Record}
  (h : context.Singled first aliasName link last primaryId)
  (hcolumn : context.catalog.resolve link.entity primaryId = .ok column)

include h

theorem exists_held {right : Relation} (hright : context.scan link.entity = .ok right) :
    ∀ target ∈ right.records, ∃ value, target.getUnwrapped? primaryId = some value ∧
      value.isNull = false := by
  have hscan : context.scan link.entity =
      .ok (.scan context.store link.entity primaryId) := by
    rw [scan, h.known]
    rfl
  obtain rfl := Except.ok.inj (hscan.symm.trans hright)
  intro target htarget
  obtain ⟨stored, hstored, rfl⟩ := List.mem_map.mp htarget
  -- a scan writes the id of a record under the primary id, unless something is held there
  unfold Relation.identified
  split
  · rename_i hcontains
    obtain ⟨value, hvalue⟩ := Option.isSome_iff_exists.mp hcontains
    have hget : stored.getUnwrapped? primaryId = some value.unwrap := by
      rw [Record.getUnwrapped?, Record.get?, hvalue, Option.map_some]
    refine ⟨value.unwrap, hget, ?_⟩
    have hheld := h.held stored hstored
    rw [hget] at hheld
    cases hunwrapped : value.unwrap <;> first | rfl | exact absurd (by rw [hunwrapped]) hheld
  · refine ⟨.uuid stored.id, ?_, rfl⟩
    rw [Record.getUnwrapped?, Record.get?_set, if_pos rfl]
    rfl

theorem getUnwrapped?_merge (target : Record) {value : Value}
    (hvalue : target.getUnwrapped? primaryId = some value) :
    (record.merge aliasName target).getUnwrapped? (qualify aliasName primaryId) = some value := by
  obtain ⟨stored, hstored, rfl⟩ := Option.map_eq_some_iff.mp hvalue
  rw [Record.getUnwrapped?, Record.get?_merge_qualify, h.plainId, if_neg Bool.false_ne_true,
    hstored]
  simp [Value.unwrap, Value.unwrap_unwrap]

section Rows

variable {rows : Record → List Record}
  (hframe : Frame ((mergedAll last).map (·.aliasName)) rows)

include hcolumn hframe

theorem admits_unmatched (hlacks : record.Lacks aliasName) : ∀ row ∈ rows record,
    (Predicate.isNull (Accessor.ofColumn (some aliasName) column) false).admits row = true := by
  intro row hrow
  have hrowLacks := hframe.lacks h.plain h.notLast hrow hlacks
  rw [Predicate.admits, Accessor.read?_of_lacks hcolumn h.plainId hrowLacks]
  rfl

theorem not_admits_matched {right : Relation} (hright : context.scan link.entity = .ok right) :
    ∀ target ∈ right.records, ∀ row ∈ rows (record.merge aliasName target),
      (Predicate.isNull (Accessor.ofColumn (some aliasName) column) false).admits row = false := by
  intro target htarget row hrow
  obtain ⟨value, hvalue, hnull⟩ := h.exists_held hright target htarget
  have hheld : row.getUnwrapped? (qualify aliasName primaryId) = some value := by
    rw [Record.getUnwrapped?, hframe.get?_qualify h.plain h.notLast hrow h.plainId]
    exact h.getUnwrapped?_merge target hvalue
  rw [Predicate.admits, Accessor.read?_of_held hcolumn hheld, Option.map_some, hnull]
  rfl

theorem flatMap_filter {right : Relation} {own : Predicate} {leftColumn rightColumn : String}
    (hright : context.scan link.entity = .ok right) (hlacks : record.Lacks aliasName)
    {all rest : Record → Bool} (hsplit : ∀ row, all row =
      ((Predicate.isNull (Accessor.ofColumn (some aliasName) column) false).admits row && rest row)) :
    (Relation.joinRow (right.records.filter own.admits) leftColumn rightColumn aliasName true
        record).flatMap (fun joined => (rows joined).filter all) =
      if Relation.keeps .notAny own (Relation.linked right.records leftColumn rightColumn record) then
        (rows record).filter rest
      else [] := by
  apply Relation.flatMap_joinRow_filter
  · intro target htarget row hrow
    rw [hsplit, h.not_admits_matched hcolumn hframe hright target htarget row hrow, Bool.false_and]
  · intro row hrow
    rw [hsplit, h.admits_unmatched hcolumn hframe hlacks row hrow, Bool.true_and]

end Rows

theorem finish_records {criteria both : Predicate} {answer other : Relation}
    (hcolumn : context.catalog.resolve link.entity primaryId = .ok column)
    (hboth : ∀ row, both.admits row =
      ((Predicate.isNull (Accessor.ofColumn (some aliasName) column) false).admits row &&
        criteria.admits row))
    (hroot : ∀ record ∈ relation.records, record.Lacks aliasName)
    (houter : context.finish aliases [both]
      (first ++ ⟨aliasName, link.withKind .leftOuter, []⟩ :: last) relation = .ok answer)
    (hnot : context.finish aliases [criteria]
      (first ++ ⟨aliasName, link.withKind .notAny, []⟩ :: last) relation = .ok other) :
    answer.records = other.records ∧ ∀ row ∈ other.records, row.Lacks aliasName := by
  rw [finish_append] at houter hnot
  obtain ⟨⟨joined, deferred⟩, hjoined, houter⟩ := bind_eq_ok_iff.mp houter
  obtain ⟨⟨joined', deferred'⟩, hjoined', hnot⟩ := bind_eq_ok_iff.mp hnot
  simp only [finish_cons] at houter hnot
  obtain ⟨⟨merged, after⟩, hmerged, hmergedLast⟩ := bind_eq_ok_iff.mp houter
  obtain ⟨⟨kept, after'⟩, hkept, hkeptLast⟩ := bind_eq_ok_iff.mp hnot
  obtain ⟨right, own, waiting, hright, hown, rfl, hwaiting, hmergedRows⟩ :=
    joinLink_leftOuter_rows rfl hmerged
  obtain ⟨right', own', hright', hown', rfl, hkeptRows⟩ := joinLink_notAny_rows rfl hkept
  obtain rfl := Except.ok.inj (hright.symm.trans hright')
  obtain rfl := Except.ok.inj (hown.symm.trans hown')
  obtain ⟨firstFaulty, firstRows, _, early, hfirst⟩ := joinLinks_pointwise first hjoined
  obtain ⟨⟨rest, restFilters⟩, hrest, -⟩ := bind_eq_ok_iff.mp hmergedLast
  obtain ⟨lastFaulty, lastRows, _, late, hlast⟩ := joinLinks_pointwise last hrest
  obtain ⟨-, hanswer⟩ := finish_rows hlast hmergedLast
  obtain ⟨-, hother⟩ := finish_rows hlast hkeptLast
  obtain ⟨rfl, rfl⟩ := hfirst.eq_of_ok hjoined
  obtain ⟨rfl, rfl⟩ := hfirst.eq_of_ok hjoined'
  have hjoinedLacks : ∀ record ∈ relation.records.flatMap firstRows, record.Lacks aliasName := by
    intro record hrecord
    obtain ⟨scanned, hscanned, hrow⟩ := List.mem_flatMap.mp hrecord
    exact hfirst.frame.lacks h.plain h.notFirst hrow (hroot scanned hscanned)
  have hsplit : ∀ row, (Predicate.conjunction ([both] ++ early ++ waiting ++ late)).admits row =
      ((Predicate.isNull (Accessor.ofColumn (some aliasName) column) false).admits row &&
        (Predicate.conjunction ([criteria] ++ early ++ late)).admits row) := by
    intro row
    have hall : waiting.all (·.admits row) = true :=
      List.all_eq_true.mpr fun predicate hpredicate => hwaiting predicate hpredicate row
    simp only [Predicate.admits_conjunction, List.all_append, List.all_cons, List.all_nil, hall,
      hboth, Bool.and_true, Bool.and_assoc]
  dsimp only at hanswer hother
  constructor
  · rw [hanswer, hother, hmergedRows, hkeptRows, List.flatMap_assoc, ← Relation.flatMap_ite]
    apply List.flatMap_congr
    intro record hrecord
    exact h.flatMap_filter hcolumn hlast.frame hright (hjoinedLacks record hrecord) hsplit
  · intro row hmem
    rw [hother, hkeptRows] at hmem
    obtain ⟨record, hrecord, hmem⟩ := List.mem_flatMap.mp hmem
    exact hlast.frame.lacks h.plain h.notLast (List.mem_filter.mp hmem).1
      (hjoinedLacks record (List.mem_filter.mp hrecord).1)

end Singled

end Context

end RecordQuery
