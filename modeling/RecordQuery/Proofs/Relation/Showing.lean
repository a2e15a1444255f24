import RecordQuery.Proofs.Record.Merge
import RecordQuery.Relation.Project

namespace RecordQuery

open Record (qualify isQualified get?_set lookup_eq_none lookup_filter)

namespace Projection

theorem get?_copyEntries (entries : List (String × Value)) (shown : Record) (name : String)
    (h : (entries.map Prod.fst).Nodup) :
    (copyEntries shown entries).get? name = (entries.lookup name).or (shown.get? name) := by
  induction entries generalizing shown with
  | nil => rfl
  | cons entry rest ih =>
    obtain ⟨first, value⟩ := entry
    obtain ⟨hfirst, hrest⟩ := List.nodup_cons.mp h
    have hstep := ih (shown.set first value) hrest
    rw [copyEntries] at hstep ⊢
    rw [List.foldl_cons, hstep, get?_set, List.lookup_cons]
    by_cases heq : name = first
    · subst heq
      simp [lookup_eq_none hfirst]
    · rw [if_neg heq, beq_false_of_ne heq]

theorem get?_copyEntries_filter (record shown : Record) (keep : String → Bool) (name : String) :
    (copyEntries shown (record.attributes.entries.filter fun entry => keep entry.1)).get? name =
      (if keep name then record.get? name else none).or (shown.get? name) := by
  rw [get?_copyEntries _ _ _ (record.nodup_filter keep), lookup_filter]
  rfl

/-- One thing that is shown: the plain columns of a row, those that are merged in under an alias, a
listed column of either, or the identifier. -/
inductive Part where
  | plain
  | merged (aliasName : String)
  | own (entity : String) (column : ProjectedColumn)
  | linked (aliasName : String) (column : ProjectedColumn)
  | identifier (name : String)

namespace Part

def isUnder (aliasName name : String) : Bool :=
  match unqualify? aliasName name with
  | some rest => !isQualified rest
  | none => false

def source? : Part → String → Option String
  | .plain, out => if isQualified out then none else some out
  | .merged aliasName, out => if isUnder aliasName out then some out else none
  | .own _ column, out =>
    if out = column.alias?.getD column.column then some column.column else none
  | .linked aliasName column, out =>
    if out = column.alias?.getD (qualify aliasName column.column) then
      some (qualify aliasName column.column)
    else none
  | .identifier name, out => if out = name then some name else none

def wrap : Part → Value → Value
  | .own entity ⟨column, some _⟩, value => .aliased entity column value
  | _, value => value

theorem unwrap_wrap (part : Part) (value : Value) : (part.wrap value).unwrap = value.unwrap := by
  unfold wrap
  split <;> rfl

def write (record : Record) (part : Part) (shown : Record) : Record :=
  match part with
  | .plain =>
    copyEntries shown (record.attributes.entries.filter fun entry => !isQualified entry.1)
  | .merged aliasName =>
    copyEntries shown (record.attributes.entries.filter fun entry => isUnder aliasName entry.1)
  | .own entity ⟨column, alias?⟩ =>
    match record.get? column, alias? with
    | some value, some aliasName => shown.set aliasName (.aliased entity column value)
    | some value, none => shown.set column value
    | none, _ => shown
  | .linked aliasName column =>
    match record.get? (qualify aliasName column.column) with
    | some value => shown.set (column.alias?.getD (qualify aliasName column.column)) value
    | none => shown
  | .identifier name =>
    match record.get? name with
    | some value => shown.set name value
    | none => shown

theorem get?_write (record shown : Record) (part : Part) (out : String) :
    (part.write record shown).get? out =
      ((part.source? out).bind fun key => (record.get? key).map part.wrap).or (shown.get? out) := by
  have hmap (part : Part) (h : ∀ value, part.wrap value = value) (found : Option Value) :
      found.map part.wrap = found := by
    cases found <;> simp [h]
  cases part with
  | plain =>
    rw [write, get?_copyEntries_filter record shown fun key => !isQualified key, source?]
    cases isQualified out <;> simp [hmap .plain fun _ => rfl]
  | merged aliasName =>
    rw [write, get?_copyEntries_filter record shown (isUnder aliasName), source?]
    cases isUnder aliasName out <;> simp [hmap (.merged aliasName) fun _ => rfl]
  | own entity column =>
    obtain ⟨column, alias?⟩ := column
    cases alias? with
    | none =>
      by_cases hout : out = column <;> cases hvalue : record.get? column <;>
        simp [write, source?, wrap, hvalue, hout]
    | some aliasName =>
      by_cases hout : out = aliasName <;> cases hvalue : record.get? column <;>
        simp [write, source?, wrap, hvalue, hout]
  | linked aliasName column =>
    by_cases hout : out = column.alias?.getD (qualify aliasName column.column) <;>
      cases hvalue : record.get? (qualify aliasName column.column) <;>
      simp [write, source?, wrap, hvalue, hout]
  | identifier name =>
    by_cases hout : out = name <;> cases hvalue : record.get? name <;>
      simp [write, source?, wrap, hvalue, hout]

end Part

def rootParts (projection : Projection) : List Part :=
  match projection.root with
  | .all => [.plain]
  | .columns listed => listed.map (.own projection.entity)
  | .none => [.identifier projection.primaryId]

def linkParts (aliasName : String) : Selection → List Part
  | .all => [.merged aliasName]
  | .columns listed => listed.map (.linked aliasName)
  | .none => []

def parts (projection : Projection) : List Part :=
  projection.rootParts ++ projection.links.flatMap fun link => linkParts link.1 link.2

def write (record : Record) (parts : List Part) (shown : Record) : Record :=
  parts.foldl (fun shown part => part.write record shown) shown

theorem showRoot_eq (projection : Projection) (record shown : Record) :
    projection.showRoot record shown = write record projection.rootParts shown := by
  unfold showRoot rootParts write
  cases projection.root with
  | all => rfl
  | none => rfl
  | columns listed =>
    dsimp only
    rw [List.foldl_map]
    rfl

theorem showLink_eq (record : Record) (aliasName : String) (selection : Selection)
    (shown : Record) :
    showLink record aliasName selection shown =
      write record (linkParts aliasName selection) shown := by
  unfold showLink linkParts write
  cases selection with
  | all => rfl
  | none => rfl
  | columns listed =>
    dsimp only
    rw [List.foldl_map]
    rfl

theorem project_eq (projection : Projection) (record : Record) :
    projection.project record =
      write record projection.parts ⟨record.entity, record.id, .empty⟩ := by
  have hlinks : ∀ (links : List (String × Selection)) (shown : Record),
      links.foldl (fun shown link => showLink record link.1 link.2 shown) shown =
        write record (links.flatMap fun link => linkParts link.1 link.2) shown := by
    intro links
    induction links with
    | nil => exact fun _ => rfl
    | cons link rest ih =>
      intro shown
      rw [List.foldl_cons, ih, showLink_eq, List.flatMap_cons, write, write, write,
        List.foldl_append]
  rw [project, hlinks, showRoot_eq, parts, write, write, write, List.foldl_append]

section Sole

variable {record : Record} {out key : String} {parts : List Part}

theorem Part.getUnwrapped?_write (record shown : Record) (part : Part) (out : String) :
    (part.write record shown).getUnwrapped? out =
      ((part.source? out).bind record.getUnwrapped?).or (shown.getUnwrapped? out) := by
  unfold Record.getUnwrapped?
  rw [get?_write]
  cases part.source? out with
  | none => rfl
  | some key => cases hvalue : record.get? key <;> simp [hvalue, unwrap_wrap]

def Sole (record : Record) (parts : List Part) (out key : String) : Prop :=
  ∀ part ∈ parts, ∀ other, part.source? out = some other → other = key ∨ record.get? other = none

namespace Sole

theorem tail {part : Part} (h : Sole record (part :: parts) out key) :
    Sole record parts out key :=
  fun other hother => h other (List.mem_cons_of_mem part hother)

theorem getUnwrapped?_head {part : Part} (h : Sole record (part :: parts) out key)
    (shown : Record) :
    (part.write record shown).getUnwrapped? out =
      if part.source? out = some key then
        (record.getUnwrapped? key).or (shown.getUnwrapped? out)
      else shown.getUnwrapped? out := by
  rw [part.getUnwrapped?_write]
  cases hsource : part.source? out with
  | none => rfl
  | some other =>
    by_cases heq : other = key
    · rw [heq, if_pos rfl, Option.bind_some]
    · have hnothing := (h part List.mem_cons_self other hsource).resolve_left heq
      rw [if_neg fun hkey => heq (Option.some.inj hkey), Option.bind_some, Record.getUnwrapped?,
        hnothing, Option.map_none, Option.none_or]

theorem getUnwrapped?_write_of_eq (h : Sole record parts out key) (shown : Record)
    (hshown : shown.getUnwrapped? out = record.getUnwrapped? key) :
    (write record parts shown).getUnwrapped? out = record.getUnwrapped? key := by
  induction parts generalizing shown with
  | nil => exact hshown
  | cons part rest ih =>
    apply ih h.tail
    rw [h.getUnwrapped?_head, hshown, Option.or_self, ite_self]

theorem getUnwrapped?_write (h : Sole record parts out key)
    (hpart : ∃ part ∈ parts, part.source? out = some key) (shown : Record)
    (hshown : shown.getUnwrapped? out = none) :
    (write record parts shown).getUnwrapped? out = record.getUnwrapped? key := by
  induction parts generalizing shown with
  | nil =>
    obtain ⟨part, hmem, -⟩ := hpart
    contradiction
  | cons part rest ih =>
    have hhead := h.getUnwrapped?_head shown
    by_cases hsource : part.source? out = some key
    · rw [if_pos hsource, hshown, Option.or_none] at hhead
      exact h.tail.getUnwrapped?_write_of_eq _ hhead
    · rw [if_neg hsource] at hhead
      obtain ⟨other, hmem, hother⟩ := hpart
      apply ih h.tail
      · rcases List.mem_cons.mp hmem with rfl | hmem
        · contradiction
        · exact ⟨other, hmem, hother⟩
      · rw [hhead, hshown]

end Sole

theorem getUnwrapped?_project {projection : Projection} (h : Sole record projection.parts out key)
    {part : Part} (hmem : part ∈ projection.parts) (hpart : part.source? out = some key) :
    (projection.project record).getUnwrapped? out = record.getUnwrapped? key := by
  rw [project_eq]
  exact h.getUnwrapped?_write ⟨part, hmem, hpart⟩ _ rfl

end Sole

end Projection

end RecordQuery
