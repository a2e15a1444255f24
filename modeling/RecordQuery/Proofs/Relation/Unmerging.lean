import RecordQuery.Proofs.Relation.Appearance
import RecordQuery.Proofs.Relation.QueryRows
import RecordQuery.Proofs.Relation.Showing

namespace RecordQuery

namespace Record

variable {record other : Record} {joined : List (String × Record)} {aliasName name key : String}
  {value : Value}

theorem Plain.not_isQualified (h : record.Plain) (hvalue : record.get? key = some value) :
    isQualified key = false := by
  rw [Bool.eq_false_iff]
  intro hkey
  rw [h key hkey] at hvalue
  contradiction

def mergeAll (record : Record) (joined : List (String × Record)) : Record :=
  joined.foldl (fun merged link => merged.merge link.1 link.2) record

theorem mergeAll_cons (record : Record) (link : String × Record) (rest : List (String × Record)) :
    record.mergeAll (link :: rest) = (record.merge link.1 link.2).mergeAll rest :=
  rfl

theorem identity_mergeAll (record : Record) (joined : List (String × Record)) :
    (record.mergeAll joined).identity = record.identity := by
  apply foldl_identity
  exact fun merged link => identity_merge link.1 merged link.2

theorem get?_mergeAll_of_ne (h : ∀ link ∈ joined, ∀ name, key ≠ qualify link.1 name)
    (record : Record) : (record.mergeAll joined).get? key = record.get? key := by
  induction joined generalizing record with
  | nil => rfl
  | cons link rest ih =>
    rw [mergeAll_cons, ih fun other hother => h other (List.mem_cons_of_mem link hother),
      get?_merge_of_ne link.1 record link.2 key (h link List.mem_cons_self)]

theorem get?_mergeAll_of_not_isQualified (hkey : isQualified key = false) (record : Record)
    (joined : List (String × Record)) : (record.mergeAll joined).get? key = record.get? key := by
  apply get?_mergeAll_of_ne
  rintro link - name rfl
  rw [isQualified_qualify] at hkey
  contradiction

structure Separate (joined : List (String × Record)) : Prop where
  distinct : (joined.map Prod.fst).Nodup
  aliases : ∀ link ∈ joined, isQualified link.1 = false
  plain : ∀ link ∈ joined, link.2.Plain

namespace Separate

variable {link : String × Record} {rest : List (String × Record)}

theorem tail (h : Separate (link :: rest)) : Separate rest where
  distinct := (List.nodup_cons.mp h.distinct).2
  aliases := fun other hother => h.aliases other (List.mem_cons_of_mem link hother)
  plain := fun other hother => h.plain other (List.mem_cons_of_mem link hother)

theorem qualify_ne (h : Separate (link :: rest)) {other : String × Record} (hother : other ∈ rest)
    (name key : String) : qualify link.1 name ≠ qualify other.1 key := by
  intro heq
  have hsame := qualify_left_injective (h.aliases link List.mem_cons_self)
    (h.aliases other (List.mem_cons_of_mem link hother)) heq
  apply (List.nodup_cons.mp h.distinct).1
  rw [hsame]
  exact List.mem_map_of_mem hother

theorem get?_mergeAll_qualify (h : Separate joined) (hmem : (aliasName, other) ∈ joined)
    (hfresh : record.get? (qualify aliasName name) = none) :
    (record.mergeAll joined).get? (qualify aliasName name) =
      (other.get? name).map fun value => .aliased aliasName name value.unwrap := by
  induction joined generalizing record with
  | nil => contradiction
  | cons link rest ih =>
    rw [mergeAll_cons]
    rcases List.mem_cons.mp hmem with rfl | hmem
    · rw [get?_mergeAll_of_ne fun later hlater key => h.qualify_ne hlater name key,
        get?_merge_qualify, hfresh]
      have hplain := h.plain _ List.mem_cons_self
      cases hname : isQualified name with
      | true =>
        rw [hplain name hname]
        rfl
      | false => cases other.get? name <;> rfl
    · apply ih h.tail hmem
      rw [get?_merge_of_ne link.1 record link.2 _ fun key => (h.qualify_ne hmem key name).symm]
      exact hfresh

theorem get?_mergeAll_eq_some_iff (h : Separate joined) (hrecord : record.Plain) :
    (record.mergeAll joined).get? key = some value ↔
      record.get? key = some value ∨ ∃ aliasName other name inner, (aliasName, other) ∈ joined ∧
        other.get? name = some inner ∧ key = qualify aliasName name ∧
        value = .aliased aliasName name inner.unwrap := by
  have hfresh (aliasName name : String) : record.get? (qualify aliasName name) = none :=
    hrecord _ (isQualified_qualify aliasName name)
  constructor
  · intro hvalue
    by_cases hkey : ∃ link ∈ joined, ∃ name, key = qualify link.1 name
    · obtain ⟨⟨aliasName, other⟩, hmem, name, rfl⟩ := hkey
      rw [h.get?_mergeAll_qualify hmem (hfresh aliasName name)] at hvalue
      obtain ⟨inner, hinner, hvalue⟩ := Option.map_eq_some_iff.mp hvalue
      exact .inr ⟨aliasName, other, name, inner, hmem, hinner, rfl, hvalue.symm⟩
    · rw [get?_mergeAll_of_ne fun link hlink name heq => hkey ⟨link, hlink, name, heq⟩] at hvalue
      exact .inl hvalue
  · rintro (hvalue | ⟨aliasName, other, name, inner, hmem, hinner, rfl, rfl⟩)
    · rw [get?_mergeAll_of_not_isQualified (hrecord.not_isQualified hvalue), hvalue]
    · rw [h.get?_mergeAll_qualify hmem (hfresh aliasName name), hinner, Option.map_some]

end Separate

end Record

namespace Projection

open Record (qualify isQualified toList_qualify)

theorem unqualify?_eq_some_iff {aliasName name rest : String} :
    unqualify? aliasName name = some rest ↔ name = qualify aliasName rest := by
  have hlead : (qualify aliasName "").toList = aliasName.toList ++ ['.'] := by
    simp [toList_qualify]
  unfold unqualify?
  dsimp only
  rw [hlead]
  constructor
  · intro h
    split at h
    · rename_i hprefix
      obtain ⟨behind, hbehind⟩ := List.isPrefixOf_iff_prefix.mp hprefix
      obtain rfl := Option.some.inj h
      rw [← String.toList_inj, toList_qualify, ← hbehind]
      simp
    · contradiction
  · rintro rfl
    have hprefix : aliasName.toList ++ ['.'] <+: (qualify aliasName rest).toList :=
      ⟨rest.toList, by simp [toList_qualify]⟩
    rw [if_pos (List.isPrefixOf_iff_prefix.mpr hprefix), toList_qualify]
    simp

namespace Part

theorem isUnder_iff {aliasName key : String} :
    isUnder aliasName key = true ↔
      ∃ name, key = qualify aliasName name ∧ isQualified name = false := by
  unfold isUnder
  cases hname : unqualify? aliasName key with
  | none =>
    simp only [Bool.false_eq_true, false_iff]
    rintro ⟨name, hkey, -⟩
    rw [unqualify?_eq_some_iff.mpr hkey] at hname
    contradiction
  | some name =>
    have hkey := unqualify?_eq_some_iff.mp hname
    simp only [Bool.not_eq_true']
    constructor
    · exact fun hplain => ⟨name, hkey, hplain⟩
    · rintro ⟨other, hother, hplain⟩
      rw [hkey] at hother
      rw [Record.qualify_right_injective aliasName hother]
      exact hplain

inductive Copies : Part → Prop
  | plain : Copies .plain
  | merged (aliasName : String) : Copies (.merged aliasName)

variable {part : Part} {out : String}

def shows (part : Part) (out : String) : Bool := (part.source? out).isSome

@[simp] theorem shows_plain (out : String) : Part.plain.shows out = !isQualified out := by
  rw [shows, source?]
  cases isQualified out <;> rfl

@[simp] theorem shows_merged (aliasName out : String) :
    (Part.merged aliasName).shows out = isUnder aliasName out := by
  rw [shows, source?]
  cases isUnder aliasName out <;> rfl

theorem Copies.get?_write (h : part.Copies) (record shown : Record) :
    (part.write record shown).get? out =
      (if part.shows out then record.get? out else none).or (shown.get? out) := by
  cases h with
  | plain =>
    rw [Part.write, get?_copyEntries_filter record shown fun key => !isQualified key, shows_plain]
  | merged aliasName =>
    rw [Part.write, get?_copyEntries_filter record shown (isUnder aliasName), shows_merged]

end Part

variable {projection : Projection} {parts : List Part} {out : String}

theorem get?_write_copies (h : ∀ part ∈ parts, part.Copies) (record shown : Record) :
    (write record parts shown).get? out =
      (if parts.any (·.shows out) then record.get? out else none).or (shown.get? out) := by
  induction parts generalizing shown with
  | nil => rfl
  | cons part rest ih =>
    have hrest := ih (fun other hother => h other (List.mem_cons_of_mem part hother))
      (part.write record shown)
    rw [(h part List.mem_cons_self).get?_write] at hrest
    rw [write, List.foldl_cons, ← write, hrest, List.any_cons]
    cases part.shows out <;> cases rest.any (·.shows out) <;> simp [← Option.or_assoc]

structure ShowsWhole (projection : Projection) : Prop where
  root : projection.root = .all
  links : ∀ link ∈ projection.links, link.2 = .all ∨ link.2 = .none

namespace ShowsWhole

theorem copies (h : projection.ShowsWhole) : ∀ part ∈ projection.parts, part.Copies := by
  intro part hpart
  rw [parts, rootParts, h.root] at hpart
  rcases List.mem_append.mp hpart with hpart | hpart
  · rw [List.mem_singleton.mp hpart]
    exact .plain
  · obtain ⟨link, hlink, hpart⟩ := List.mem_flatMap.mp hpart
    rcases h.links link hlink with hall | hnone
    · rw [hall, linkParts] at hpart
      rw [List.mem_singleton.mp hpart]
      exact .merged link.1
    · rw [hnone, linkParts] at hpart
      contradiction

theorem any_shows_iff (h : projection.ShowsWhole) (out : String) :
    projection.parts.any (·.shows out) = true ↔ isQualified out = false ∨
      ∃ aliasName, (aliasName, .all) ∈ projection.links ∧ Part.isUnder aliasName out = true := by
  rw [parts, rootParts, h.root, List.any_append, List.any_flatMap, Bool.or_eq_true]
  refine or_congr (by simp) ?_
  rw [List.any_eq_true]
  constructor
  · rintro ⟨⟨aliasName, selection⟩, hlink, hshows⟩
    rcases h.links _ hlink with rfl | rfl
    · exact ⟨aliasName, hlink, by simpa [linkParts] using hshows⟩
    · simp [linkParts] at hshows
  · rintro ⟨aliasName, hlink, hunder⟩
    exact ⟨_, hlink, by simp [linkParts, hunder]⟩

theorem get?_project_eq_some_iff (h : projection.ShowsWhole) (record : Record) (value : Value) :
    (projection.project record).get? out = some value ↔ record.get? out = some value ∧
      (isQualified out = false ∨
        ∃ aliasName, (aliasName, .all) ∈ projection.links ∧ Part.isUnder aliasName out = true) := by
  rw [← h.any_shows_iff, project_eq, get?_write_copies h.copies]
  have hempty : Record.get? ⟨record.entity, record.id, .empty⟩ out = none := rfl
  rw [hempty, Option.or_none]
  cases projection.parts.any (·.shows out) <;> simp

end ShowsWhole

/-- Records merged into a row are shown again as they were: the row's own attributes unchanged,
and under each alias of which all is shown the attributes of its record; nothing of the other
aliases. -/
theorem project_mergeAll {root : Record} {joined : List (String × Record)} (hroot : root.Plain)
    (hjoined : Record.Separate joined) (hwhole : projection.ShowsWhole) :
    (projection.project (root.mergeAll joined)).entity = root.entity ∧
      (projection.project (root.mergeAll joined)).id = root.id ∧
      ∀ key value, (projection.project (root.mergeAll joined)).get? key = some value ↔
        root.get? key = some value ∨ ∃ aliasName other name inner,
          (aliasName, other) ∈ joined ∧ (aliasName, .all) ∈ projection.links ∧
          other.get? name = some inner ∧ key = qualify aliasName name ∧
          value = .aliased aliasName name inner.unwrap := by
  have hidentity := (projection.identity_project (root.mergeAll joined)).trans
    (root.identity_mergeAll joined)
  obtain ⟨hentity, hid⟩ := Prod.mk.inj hidentity
  refine ⟨hentity, hid, fun key value => ?_⟩
  rw [hwhole.get?_project_eq_some_iff, hjoined.get?_mergeAll_eq_some_iff hroot]
  constructor
  · rintro ⟨hvalue | ⟨aliasName, other, name, inner, hmem, hinner, rfl, rfl⟩, hshown⟩
    · exact .inl hvalue
    · refine .inr ⟨aliasName, other, name, inner, hmem, ?_, hinner, rfl, rfl⟩
      rcases hshown with hplain | ⟨shownAlias, hlink, hunder⟩
      · rw [Record.isQualified_qualify] at hplain
        contradiction
      · obtain ⟨rest, heq, hrest⟩ := Part.isUnder_iff.mp hunder
        have hname := (hjoined.plain _ hmem).not_isQualified hinner
        rw [(Record.qualify_injective hname hrest heq).1]
        exact hlink
  · rintro (hvalue | ⟨aliasName, other, name, inner, hmem, hlink, hinner, rfl, rfl⟩)
    · exact ⟨.inl hvalue, .inl (hroot.not_isQualified hvalue)⟩
    · have hname := (hjoined.plain _ hmem).not_isQualified hinner
      exact ⟨.inr ⟨aliasName, other, name, inner, hmem, hinner, rfl, rfl⟩,
        .inr ⟨aliasName, hlink, Part.isUnder_iff.mpr ⟨name, rfl, hname⟩⟩⟩

def namedAccount : Record := ⟨"account", .ofNat 1, .ofList [("c", .int 7), ("name", .text "North")]⟩

def aliasedContact : Record :=
  ⟨"contact", .ofNat 2, .ofList [("name", .aliased "x" "fullname" (.text "Ann"))]⟩

def twoContacts : List (String × Record) := [("c", aliasedContact), ("cc", aliasedContact)]

def firstContact : Projection := ⟨"account", "accountid", .all, [("c", .all), ("cc", .none)]⟩

theorem project_mergeAll_contacts :
    (firstContact.project (namedAccount.mergeAll twoContacts)).id = .ofNat 1 ∧
      (firstContact.project (namedAccount.mergeAll twoContacts)).get? "c" = some (.int 7) ∧
      (firstContact.project (namedAccount.mergeAll twoContacts)).get? "c.name" =
        some (.aliased "c" "name" (.text "Ann")) := by
  have haccount : namedAccount.Plain := Record.plain_of_names (by decide)
  have hcontact : aliasedContact.Plain := Record.plain_of_names (by decide)
  have hjoined : Record.Separate twoContacts := by
    refine ⟨by decide, fun link hlink => ?_, fun link hlink => ?_⟩
    · have hall : ∀ name ∈ twoContacts.map Prod.fst, isQualified name = false := by decide
      exact hall _ (List.mem_map_of_mem hlink)
    · simp only [twoContacts, List.mem_cons, List.not_mem_nil, or_false] at hlink
      rcases hlink with rfl | rfl <;> exact hcontact
  have hwhole : firstContact.ShowsWhole := ⟨rfl, by decide⟩
  obtain ⟨-, hid, hvalues⟩ := project_mergeAll haccount hjoined hwhole
  refine ⟨hid, (hvalues "c" _).mpr (.inl rfl), (hvalues "c.name" _).mpr (.inr ?_)⟩
  exact ⟨"c", aliasedContact, "name", _, List.mem_cons_self, List.mem_cons_self, rfl, rfl, rfl⟩

end Projection

end RecordQuery
