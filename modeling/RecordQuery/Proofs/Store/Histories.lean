import Mathlib.Data.List.Induction
import RecordQuery.Proofs.Store.Lookup

namespace RecordQuery

inductive Change where
  | insert (record : Record)
  | remove (entity : String) (id : Uuid)

def Change.entity : Change → String
  | .insert record => record.entity
  | .remove entity _ => entity

def Record.placedIn (record : Record) (listed : List Record) : List Record :=
  if record.id ∈ listed.map (·.id) then
    listed.map fun old => if old.id = record.id then record else old
  else listed ++ [record]

def Change.onListed (entity : String) (listed : List Record) : Change → List Record
  | .insert record => if record.entity = entity then record.placedIn listed else listed
  | .remove other id => if other = entity then listed.filter (·.id != id) else listed

theorem Record.mem_placedIn {record row : Record} {listed : List Record} :
    row ∈ record.placedIn listed ↔ row = record ∨ (row ∈ listed ∧ row.id ≠ record.id) := by
  unfold Record.placedIn
  split
  · rename_i hplace
    rw [List.mem_map]
    constructor
    · rintro ⟨old, hold, rfl⟩
      split
      · exact .inl rfl
      · rename_i hid
        exact .inr ⟨hold, hid⟩
    · rintro (rfl | ⟨hrow, hid⟩)
      · obtain ⟨old, hold, hid⟩ := List.mem_map.mp hplace
        exact ⟨old, hold, if_pos hid⟩
      · exact ⟨row, hrow, if_neg hid⟩
  · rename_i hnew
    rw [List.mem_append, List.mem_singleton, or_comm]
    refine or_congr_right ⟨fun hrow => ⟨hrow, fun hid => hnew ?_⟩, And.left⟩
    exact List.mem_map.mpr ⟨row, hrow, hid⟩

theorem Record.placedIn_cons_of_ne {record row : Record} {rest : List Record}
    (hid : row.id ≠ record.id) : record.placedIn (row :: rest) = row :: record.placedIn rest := by
  unfold Record.placedIn
  by_cases hplace : record.id ∈ rest.map (·.id)
  · have hstill : record.id ∈ (row :: rest).map (·.id) := List.mem_cons_of_mem _ hplace
    rw [if_pos hplace, if_pos hstill, List.map_cons, if_neg hid]
  · have hnew : record.id ∉ (row :: rest).map (·.id) := by
      rw [List.map_cons, List.mem_cons, not_or]
      exact ⟨hid.symm, hplace⟩
    rw [if_neg hplace, if_neg hnew, List.cons_append]

theorem Record.placedIn_cons_of_eq {record row : Record} {rest : List Record}
    (hid : row.id = record.id) (hrest : record.id ∉ rest.map (·.id)) :
    record.placedIn (row :: rest) = record :: rest := by
  have hsame : rest.map (fun old => if old.id = record.id then record else old) = rest := by
    have hkept : ∀ old ∈ rest, (if old.id = record.id then record else old) = old := fun old hold =>
      if_neg fun h => hrest (List.mem_map.mpr ⟨old, hold, h⟩)
    rw [List.map_congr_left hkept, List.map_id']
  rw [Record.placedIn, if_pos (by simp [hid]), List.map_cons, if_pos hid, hsame]

namespace History

variable {changes : List Change} {change : Change} {entity : String} {id : Uuid} {record : Record}

def Live (changes : List Change) (entity : String) (id : Uuid) : Prop :=
  ∃ earlier record later, changes = earlier ++ .insert record :: later ∧
    record.isAt entity id = true ∧ .remove entity id ∉ later

def Entered (changes : List Change) (entity : String) (id : Uuid) (place : Nat) : Prop :=
  ∃ earlier record later, changes = earlier ++ .insert record :: later ∧ earlier.length = place ∧
    record.isAt entity id = true ∧ ¬ Live earlier entity id ∧ .remove entity id ∉ later

def Standing (changes : List Change) (record : Record) : Prop :=
  ∃ earlier later, changes = earlier ++ .insert record :: later ∧
    .remove record.entity record.id ∉ later ∧
    ∀ other, .insert other ∈ later → other.isAt record.entity record.id = false

theorem concat_eq_append_cons {α : Type} {xs earlier later : List α} {last x : α} :
    xs ++ [last] = earlier ++ x :: later ↔
      (xs = earlier ∧ last = x ∧ later = []) ∨
        ∃ between, later = between ++ [last] ∧ xs = earlier ++ x :: between := by
  rcases List.eq_nil_or_concat later with rfl | ⟨between, final, rfl⟩
  · simp [List.append_singleton_inj]
  · rw [List.concat_eq_append, ← List.cons_append, ← List.append_assoc, List.append_singleton_inj]
    constructor
    · rintro ⟨rfl, rfl⟩
      exact .inr ⟨between, rfl, rfl⟩
    · rintro (⟨-, -, hnil⟩ | ⟨other, hlater, rfl⟩)
      · simp at hnil
      · obtain ⟨rfl, rfl⟩ := List.append_singleton_inj.mp hlater
        exact ⟨rfl, rfl⟩

theorem live_concat : Live (changes ++ [change]) entity id ↔
    (∃ record, change = .insert record ∧ record.isAt entity id = true) ∨
      (change ≠ .remove entity id ∧ Live changes entity id) := by
  constructor
  · rintro ⟨earlier, record, later, hsplit, hat, hkept⟩
    rcases concat_eq_append_cons.mp hsplit with ⟨rfl, rfl, rfl⟩ | ⟨between, rfl, rfl⟩
    · exact .inl ⟨record, rfl, hat⟩
    · have hboth : .remove entity id ∉ between ∧ change ≠ .remove entity id := by
        simpa [eq_comm] using hkept
      exact .inr ⟨hboth.2, earlier, record, between, rfl, hat, hboth.1⟩
  · rintro (⟨record, rfl, hat⟩ | ⟨hchange, earlier, record, later, rfl, hat, hkept⟩)
    · exact ⟨changes, record, [], rfl, hat, List.not_mem_nil⟩
    · exact ⟨earlier, record, later ++ [change], by simp, hat, by simp [hkept, hchange.symm]⟩

theorem standing_concat : Standing (changes ++ [change]) record ↔
    change = .insert record ∨
      (change ≠ .remove record.entity record.id ∧
        (∀ other, change = .insert other → other.isAt record.entity record.id = false) ∧
        Standing changes record) := by
  constructor
  · rintro ⟨earlier, later, hsplit, hkept, hlast⟩
    rcases concat_eq_append_cons.mp hsplit with ⟨rfl, rfl, rfl⟩ | ⟨between, rfl, rfl⟩
    · exact .inl rfl
    · have hboth : .remove record.entity record.id ∉ between ∧
          change ≠ .remove record.entity record.id := by
        simpa [eq_comm] using hkept
      refine .inr ⟨hboth.2, fun other hother => hlast other (by simp [hother]),
        earlier, between, rfl, hboth.1, fun other hother => hlast other (by simp [hother])⟩
  · rintro (rfl | ⟨hchange, hother, earlier, later, rfl, hkept, hlast⟩)
    · exact ⟨changes, [], rfl, List.not_mem_nil, fun other hother => by simp at hother⟩
    · refine ⟨earlier, later ++ [change], by simp, by simp [hkept, hchange.symm], ?_⟩
      intro other hmem
      rcases List.mem_append.mp hmem with hmem | hmem
      · exact hlast other hmem
      · exact hother other (List.mem_singleton.mp hmem).symm

theorem Entered.concat {place : Nat} (h : Entered changes entity id place)
    (hchange : change ≠ .remove entity id) : Entered (changes ++ [change]) entity id place := by
  obtain ⟨earlier, record, later, rfl, hplace, hat, hnew, hkept⟩ := h
  exact ⟨earlier, record, later ++ [change], by simp, hplace, hat, hnew,
    by simp [hkept, hchange.symm]⟩

theorem Entered.lt {place : Nat} (h : Entered changes entity id place) :
    place < changes.length := by
  obtain ⟨earlier, record, later, rfl, rfl, -⟩ := h
  simp

theorem entered_last (hnew : ¬ Live changes entity id) (hat : record.isAt entity id = true) :
    Entered (changes ++ [.insert record]) entity id changes.length :=
  ⟨changes, record, [], rfl, rfl, hat, hnew, List.not_mem_nil⟩

theorem Live.entered (h : Live changes entity id) : ∃ place, Entered changes entity id place := by
  induction changes using List.reverseRecOn with
  | nil =>
    obtain ⟨earlier, record, later, hsplit, -⟩ := h
    simp at hsplit
  | append_singleton changes change ih =>
    by_cases hlive : Live changes entity id
    · have hchange : change ≠ .remove entity id := by
        rcases live_concat.mp h with ⟨record, rfl, -⟩ | ⟨hchange, -⟩
        · simp
        · exact hchange
      obtain ⟨place, hplace⟩ := ih hlive
      exact ⟨place, hplace.concat hchange⟩
    · rcases live_concat.mp h with ⟨record, rfl, hat⟩ | ⟨-, hlive'⟩
      · exact ⟨changes.length, entered_last hlive hat⟩
      · exact absurd hlive' hlive

theorem live_iff_standing : Live changes entity id ↔
    ∃ record, record.isAt entity id = true ∧ Standing changes record := by
  induction changes using List.reverseRecOn with
  | nil => simp [Live, Standing]
  | append_singleton changes change ih =>
    rw [live_concat, ih]
    constructor
    · rintro (⟨record, rfl, hat⟩ | ⟨hchange, record, hat, hstanding⟩)
      · exact ⟨record, hat, standing_concat.mpr (.inl rfl)⟩
      · obtain ⟨rfl, rfl⟩ := Record.isAt_iff.mp hat
        by_cases hput : ∃ other, change = .insert other ∧ other.isAt record.entity record.id = true
        · obtain ⟨other, rfl, hother⟩ := hput
          exact ⟨other, hother, standing_concat.mpr (.inl rfl)⟩
        · refine ⟨record, hat, standing_concat.mpr (.inr ⟨hchange, ?_, hstanding⟩)⟩
          intro other hother
          exact Bool.eq_false_iff.mpr fun hat => hput ⟨other, hother, hat⟩
    · rintro ⟨record, hat, hstanding⟩
      obtain ⟨rfl, rfl⟩ := Record.isAt_iff.mp hat
      rcases standing_concat.mp hstanding with rfl | ⟨hchange, -, hstanding⟩
      · exact .inl ⟨record, rfl, hat⟩
      · exact .inr ⟨hchange, record, hat, hstanding⟩

end History

open History

/-- The records that a history leaves of an entity, in the order in which their identifiers came
in: no record that stands is missing, and none is there that does not stand. -/
structure Listing (changes : List Change) (entity : String) (listed : List Record) : Prop where
  mem : ∀ record, record ∈ listed ↔ record.entity = entity ∧ Standing changes record
  ordered : listed.Pairwise fun a b => ∃ first second, first < second ∧
    Entered changes entity a.id first ∧ Entered changes entity b.id second

namespace Listing

variable {changes : List Change} {change : Change} {entity : String} {listed : List Record}

theorem nil (entity : String) : Listing [] entity [] where
  mem record := by simp [Standing]
  ordered := .nil

variable (h : Listing changes entity listed)

include h

theorem live_iff (id : Uuid) : Live changes entity id ↔ id ∈ listed.map (·.id) := by
  rw [live_iff_standing, List.mem_map]
  refine exists_congr fun record => ?_
  rw [Record.isAt_iff, h.mem]
  exact and_right_comm

theorem ordered_concat (change : Change)
    (hchange : ∀ record ∈ listed, change ≠ .remove entity record.id) :
    listed.Pairwise fun a b => ∃ first second, first < second ∧
      Entered (changes ++ [change]) entity a.id first ∧
      Entered (changes ++ [change]) entity b.id second := by
  refine h.ordered.imp_of_mem ?_
  rintro a b ha hb ⟨first, second, hlt, hfirst, hsecond⟩
  exact ⟨first, second, hlt, hfirst.concat (hchange a ha), hsecond.concat (hchange b hb)⟩

theorem elsewhere (hchange : change.entity ≠ entity) :
    Listing (changes ++ [change]) entity listed where
  mem record := by
    rw [h.mem, standing_concat]
    refine and_congr_right fun hrecord => ?_
    have hput : ∀ other, change = .insert other → other.isAt record.entity record.id = false := by
      rintro other rfl
      refine Bool.eq_false_iff.mpr fun hat => hchange ?_
      exact (Record.isAt_iff.mp hat).1.trans hrecord
    have hremoved : change ≠ .remove record.entity record.id := by
      rintro rfl
      exact hchange hrecord
    have hself : change ≠ .insert record := by
      rintro rfl
      exact hchange hrecord
    rw [or_iff_right hself, and_iff_right hremoved, and_iff_right hput]
  ordered := h.ordered_concat change <| by
    rintro record - rfl
    exact hchange rfl

theorem insert (record : Record) (hrecord : record.entity = entity) :
    Listing (changes ++ [.insert record]) entity (record.placedIn listed) where
  mem row := by
    have hat : record.isAt row.entity row.id = false ↔ ¬ (row.entity = entity ∧ row.id = record.id) := by
      rw [Bool.eq_false_iff, ne_eq, Record.isAt_iff, hrecord, eq_comm, eq_comm (a := record.id)]
    rw [Record.mem_placedIn, h.mem, standing_concat]
    constructor
    · rintro (rfl | ⟨⟨hrow, hstanding⟩, hid⟩)
      · exact ⟨hrecord, .inl rfl⟩
      · refine ⟨hrow, .inr ⟨nofun, ?_, hstanding⟩⟩
        rintro other ⟨rfl⟩
        exact hat.mpr fun hboth => hid hboth.2
    · rintro ⟨hrow, heq | ⟨-, hother, hstanding⟩⟩
      · exact .inl (Change.insert.inj heq).symm
      · exact .inr ⟨⟨hrow, hstanding⟩, fun hid => hat.mp (hother record rfl) ⟨hrow, hid⟩⟩
  ordered := by
    have hkept := h.ordered_concat (.insert record) fun _ _ => nofun
    unfold Record.placedIn
    split
    · refine List.pairwise_map.mpr (hkept.imp ?_)
      intro a b hab
      have hid : ∀ old : Record, (if old.id = record.id then record else old).id = old.id := by
        intro old
        split
        · exact Eq.symm ‹_›
        · rfl
      rw [hid, hid]
      exact hab
    · rename_i hnew
      refine List.pairwise_append.mpr ⟨hkept, List.pairwise_singleton _ _, ?_⟩
      intro old hold last hlast
      obtain rfl := List.mem_singleton.mp hlast
      have hlive : Live changes entity old.id :=
        (h.live_iff old.id).mpr (List.mem_map.mpr ⟨old, hold, rfl⟩)
      obtain ⟨place, hplace⟩ := hlive.entered
      refine ⟨place, changes.length, hplace.lt, hplace.concat nofun, entered_last ?_ ?_⟩
      · rwa [h.live_iff]
      · exact Record.isAt_iff.mpr ⟨hrecord, rfl⟩

theorem remove (id : Uuid) :
    Listing (changes ++ [.remove entity id]) entity (listed.filter (·.id != id)) where
  mem record := by
    rw [List.mem_filter, h.mem, standing_concat]
    constructor
    · rintro ⟨⟨rfl, hstanding⟩, hid⟩
      refine ⟨rfl, .inr ⟨?_, nofun, hstanding⟩⟩
      rintro ⟨⟩
      simp at hid
    · rintro ⟨rfl, heq | ⟨hchange, -, hstanding⟩⟩
      · contradiction
      · refine ⟨⟨rfl, hstanding⟩, bne_iff_ne.mpr ?_⟩
        rintro rfl
        exact hchange rfl
  ordered := by
    refine (h.ordered.filter _).imp_of_mem ?_
    rintro a b ha hb ⟨first, second, hlt, hfirst, hsecond⟩
    have hother : ∀ row ∈ listed.filter (·.id != id),
        Change.remove entity id ≠ .remove entity row.id := by
      rintro row hrow ⟨⟩
      simpa using (List.mem_filter.mp hrow).2
    exact ⟨first, second, hlt, hfirst.concat (hother a ha), hsecond.concat (hother b hb)⟩

theorem step (change : Change) :
    Listing (changes ++ [change]) entity (change.onListed entity listed) := by
  cases change with
  | insert record =>
    rw [Change.onListed]
    by_cases hrecord : record.entity = entity
    · rw [if_pos hrecord]
      exact h.insert record hrecord
    · rw [if_neg hrecord]
      exact h.elsewhere hrecord
  | remove other id =>
    rw [Change.onListed]
    by_cases hother : other = entity
    · rw [if_pos hother, hother]
      exact h.remove id
    · rw [if_neg hother]
      exact h.elsewhere hother

end Listing

end RecordQuery
