import Mathlib.Data.List.Nodup
import RecordQuery.Proofs.Outcome
import RecordQuery.Proofs.Text.Names

namespace RecordQuery.SchemaBuilder

inductive Call where
  | declare (name : String) (type : DeclaredType)
  | setPrimaryId (name : String)

def Call.attribute? : Call → Option SchemaAttribute
  | .declare name type => some ⟨name, type⟩
  | .setPrimaryId _ => none

def Call.primaryId? : Call → Option String
  | .declare _ _ => none
  | .setPrimaryId name => some name

def answer (builder : SchemaBuilder) : Call → Except Error SchemaBuilder
  | .declare name type => builder.declare name type
  | .setPrimaryId name => builder.setPrimaryId name

def ofCalls (entity : String) (calls : List Call) : Except Error SchemaBuilder := do
  let builder ← start entity
  calls.foldlM answer builder

variable {builder next : SchemaBuilder} {entity : String} {calls : List Call} {call : Call}

theorem declare_eq_ok {name : String} {type : DeclaredType}
    (h : builder.declare name type = .ok next) :
    IsName name ∧ name ∉ builder.attributes.map (·.name) ∧
      next = { builder with attributes := builder.attributes ++ [⟨name, type⟩] } := by
  obtain ⟨⟨⟩, hname, h⟩ := bind_eq_ok_iff.mp h
  rw [checkName_eq_ok_iff] at hname
  by_cases hany : builder.attributes.any (·.name == name) = true
  · rw [if_pos hany] at h
    contradiction
  · rw [if_neg hany] at h
    refine ⟨hname, ?_, (Except.ok.inj h).symm⟩
    simpa using hany

theorem setPrimaryId_eq_ok {name : String} (h : builder.setPrimaryId name = .ok next) :
    IsName name ∧ next = { builder with primaryId? := some name } := by
  obtain ⟨⟨⟩, hname, h⟩ := bind_eq_ok_iff.mp h
  exact ⟨(checkName_eq_ok_iff name).mp hname, (Except.ok.inj h).symm⟩

structure Holds (builder : SchemaBuilder) (entity : String) (calls : List Call) : Prop where
  name : builder.name = entity
  isName : IsName entity
  attributes : builder.attributes = calls.filterMap Call.attribute?
  primaryId : builder.primaryId? = (calls.filterMap Call.primaryId?).getLast?
  nodup : (builder.attributes.map (·.name)).Nodup
  names : ∀ declared ∈ builder.attributes, IsName declared.name
  idName : ∀ name ∈ builder.primaryId?, IsName name

theorem holds_start (h : start entity = .ok builder) : builder.Holds entity [] := by
  obtain ⟨⟨⟩, hname, h⟩ := bind_eq_ok_iff.mp h
  obtain rfl := Except.ok.inj h
  exact ⟨rfl, (checkName_eq_ok_iff entity).mp hname, rfl, rfl, List.nodup_nil, by simp, by simp⟩

theorem Holds.answer (h : builder.Holds entity calls) (hanswer : builder.answer call = .ok next) :
    next.Holds entity (calls ++ [call]) := by
  obtain ⟨hname, hentity, hattributes, hid, hnodup, hnames, hidName⟩ := h
  cases call with
  | declare name type =>
    obtain ⟨hvalid, hnew, rfl⟩ := declare_eq_ok hanswer
    refine ⟨hname, hentity, ?_, ?_, ?_, ?_, hidName⟩
    · simp [hattributes, Call.attribute?]
    · simp [hid, Call.primaryId?]
    · rw [List.map_append]
      exact hnodup.append (List.nodup_singleton name) (by simpa using hnew)
    · intro declared hdeclared
      rcases List.mem_append.mp hdeclared with hold | hlast
      · exact hnames declared hold
      · rw [List.mem_singleton.mp hlast]
        exact hvalid
  | setPrimaryId name =>
    obtain ⟨hvalid, rfl⟩ := setPrimaryId_eq_ok hanswer
    refine ⟨hname, hentity, ?_, ?_, hnodup, hnames, ?_⟩
    · simp [hattributes, Call.attribute?]
    · simp [Call.primaryId?]
    · simpa using hvalid

theorem Holds.answers (rest : List Call) (h : builder.Holds entity calls)
    (hrest : rest.foldlM SchemaBuilder.answer builder = .ok next) :
    next.Holds entity (calls ++ rest) := by
  induction rest generalizing builder calls with
  | nil =>
    obtain rfl := Except.ok.inj hrest
    simpa using h
  | cons call rest ih =>
    rw [List.foldlM_cons] at hrest
    obtain ⟨middle, hcall, hrest⟩ := bind_eq_ok_iff.mp hrest
    have hall := ih (h.answer hcall) hrest
    rwa [List.append_assoc] at hall

theorem holds_ofCalls (h : ofCalls entity calls = .ok builder) : builder.Holds entity calls := by
  obtain ⟨first, hstart, hrest⟩ := bind_eq_ok_iff.mp h
  exact (holds_start hstart).answers calls hrest

def identifierOf (entity : String) (calls : List Call) : String :=
  (calls.filterMap Call.primaryId?).getLast?.getD (entity ++ "id")

namespace Holds

variable (h : builder.Holds entity calls)

include h

theorem primaryId_build : builder.build.primaryId = identifierOf entity calls := by
  unfold build identifierOf
  rw [h.name, h.primaryId]
  rfl

theorem isName_identifierOf : IsName (identifierOf entity calls) := by
  have hset := h.idName
  rw [h.primaryId] at hset
  unfold identifierOf
  cases hlast : (calls.filterMap Call.primaryId?).getLast? with
  | none => exact h.isName.append (List.all_eq_true.mp (by decide))
  | some name => exact hset name hlast

theorem attributes_build : builder.build.attributes = calls.filterMap Call.attribute? ++
    if identifierOf entity calls ∈ (calls.filterMap Call.attribute?).map (·.name) then []
    else [⟨identifierOf entity calls, .uuid⟩] := by
  have hid := h.primaryId_build
  unfold build at hid ⊢
  dsimp only at hid ⊢
  rw [hid, h.attributes]
  generalize calls.filterMap Call.attribute? = declared
  by_cases hmem : identifierOf entity calls ∈ declared.map (·.name)
  · have hany : declared.any (·.name == identifierOf entity calls) = true := by simpa using hmem
    simp only [hany, hmem, if_true, List.append_nil]
  · have hany : declared.any (·.name == identifierOf entity calls) = false := by simpa using hmem
    simp only [hany, hmem, if_false, Bool.false_eq_true]

theorem names_build : builder.build.attributes.map (·.name) =
    (calls.filterMap Call.attribute?).map (·.name) ++
      if identifierOf entity calls ∈ (calls.filterMap Call.attribute?).map (·.name) then []
      else [identifierOf entity calls] := by
  rw [h.attributes_build, List.map_append]
  split <;> rfl

theorem nodup_build : (builder.build.attributes.map (·.name)).Nodup := by
  have hnodup := h.nodup
  rw [h.attributes] at hnodup
  rw [h.names_build]
  split
  · simpa using hnodup
  · rename_i hnew
    exact hnodup.append (List.nodup_singleton _) (by simpa using hnew)

theorem identifierOf_mem : identifierOf entity calls ∈ builder.build.attributes.map (·.name) := by
  rw [h.names_build]
  by_cases hmem : identifierOf entity calls ∈ (calls.filterMap Call.attribute?).map (·.name)
  · exact List.mem_append_left _ hmem
  · simp [hmem]

theorem isName_build : ∀ declared ∈ builder.build.attributes, IsName declared.name := by
  have hnames := h.names
  rw [h.attributes] at hnames
  intro declared hdeclared
  rw [h.attributes_build] at hdeclared
  rcases List.mem_append.mp hdeclared with hold | hlast
  · exact hnames declared hold
  · split at hlast
    · contradiction
    · rw [List.mem_singleton.mp hlast]
      exact h.isName_identifierOf

end Holds

theorem attribute?_eq_some {schema : Schema} (hnodup : (schema.attributes.map (·.name)).Nodup)
    {declared : SchemaAttribute} (h : declared ∈ schema.attributes) :
    schema.attribute? declared.name = some declared := by
  unfold Schema.attribute?
  rw [List.find?_eq_some_iff_append]
  obtain ⟨front, back, hsplit⟩ := List.append_of_mem h
  refine ⟨by simp, front, back, hsplit, fun other hother => ?_⟩
  rw [hsplit, List.map_append, List.map_cons] at hnodup
  have hne := (List.nodup_append.mp hnodup).2.2 other.name (List.mem_map_of_mem hother)
    declared.name List.mem_cons_self
  simpa using hne

theorem mem_attributes_iff {name : String} {type : DeclaredType} :
    ⟨name, type⟩ ∈ calls.filterMap Call.attribute? ↔ .declare name type ∈ calls := by
  rw [List.mem_filterMap]
  constructor
  · rintro ⟨call, hcall, heq⟩
    cases call with
    | declare other kind =>
      obtain ⟨rfl, rfl⟩ := SchemaAttribute.mk.inj (Option.some.inj heq)
      exact hcall
    | setPrimaryId other => contradiction
  · exact fun hcall => ⟨_, hcall, rfl⟩

theorem mem_names_iff {name : String} :
    name ∈ (calls.filterMap Call.attribute?).map (·.name) ↔
      ∃ type, .declare name type ∈ calls := by
  rw [List.mem_map]
  constructor
  · rintro ⟨⟨_, type⟩, hdeclared, rfl⟩
    exact ⟨type, mem_attributes_iff.mp hdeclared⟩
  · rintro ⟨type, hcall⟩
    exact ⟨⟨name, type⟩, mem_attributes_iff.mpr hcall, rfl⟩

theorem Holds.attribute?_build (h : builder.Holds entity calls) :
    (∀ type, .declare (identifierOf entity calls) type ∈ calls →
      builder.build.attribute? (identifierOf entity calls) =
        some ⟨identifierOf entity calls, type⟩) ∧
    ((∀ type, .declare (identifierOf entity calls) type ∉ calls) →
      builder.build.attribute? (identifierOf entity calls) =
        some ⟨identifierOf entity calls, .uuid⟩) := by
  constructor
  · intro type hcall
    have hmem : ⟨identifierOf entity calls, type⟩ ∈ builder.build.attributes := by
      rw [h.attributes_build]
      exact List.mem_append_left _ (mem_attributes_iff.mpr hcall)
    exact attribute?_eq_some h.nodup_build hmem
  · intro hnone
    have hmem : ⟨identifierOf entity calls, .uuid⟩ ∈ builder.build.attributes := by
      rw [h.attributes_build, if_neg]
      · exact List.mem_append_right _ (List.mem_singleton_self _)
      · intro hnamed
        obtain ⟨type, hcall⟩ := mem_names_iff.mp hnamed
        exact hnone type hcall
    exact attribute?_eq_some h.nodup_build hmem

/-- Of the attributes of a schema those that were declared come first, in the order of the calls.
All have different names. The identifier is among them once; it is declared as an identifier if and
only if no call declares an attribute of its name with another type. -/
theorem build_ofCalls (h : ofCalls entity calls = .ok builder) :
    builder.build.name = entity ∧
      builder.build.primaryId =
        (calls.filterMap Call.primaryId?).getLast?.getD (entity ++ "id") ∧
      (builder.build.attributes.map (·.name)).Nodup ∧
      (∀ declared ∈ builder.build.attributes, IsName declared.name) ∧
      calls.filterMap Call.attribute? <+: builder.build.attributes ∧
      (builder.build.attributes.map (·.name)).count builder.build.primaryId = 1 ∧
      (∀ type, .declare builder.build.primaryId type ∈ calls →
        builder.build.attribute? builder.build.primaryId =
          some ⟨builder.build.primaryId, type⟩) ∧
      (builder.build.attribute? builder.build.primaryId =
          some ⟨builder.build.primaryId, .uuid⟩ ↔
        ∀ type, .declare builder.build.primaryId type ∈ calls → type = .uuid) := by
  have hall := holds_ofCalls h
  obtain ⟨hdeclared, hmissing⟩ := hall.attribute?_build
  rw [hall.primaryId_build]
  refine ⟨hall.name, rfl, hall.nodup_build, hall.isName_build, ?_,
    List.count_eq_one_of_mem hall.nodup_build hall.identifierOf_mem, hdeclared, ?_, ?_⟩
  · rw [hall.attributes_build]
    exact List.prefix_append _ _
  · intro huuid type hcall
    have heq := (hdeclared type hcall).symm.trans huuid
    exact (SchemaAttribute.mk.inj (Option.some.inj heq)).2
  · intro huuid
    by_cases hsome : ∃ type, .declare (identifierOf entity calls) type ∈ calls
    · obtain ⟨type, hcall⟩ := hsome
      obtain rfl := huuid type hcall
      exact hdeclared _ hcall
    · exact hmissing (not_exists.mp hsome)

def contactCalls : List Call :=
  [.setPrimaryId "key", .declare "fullname" .text, .declare "contactkey" .uuid,
    .setPrimaryId "contactkey"]

theorem build_ofCalls_contact : ∃ builder, ofCalls "contact" contactCalls = .ok builder ∧
    builder.build.primaryId = "contactkey" ∧
    (builder.build.attributes.map (·.name)).count builder.build.primaryId = 1 ∧
    builder.build.attribute? builder.build.primaryId =
      some ⟨builder.build.primaryId, .uuid⟩ := by
  have h : ofCalls "contact" contactCalls =
      .ok ⟨"contact", some "contactkey", [⟨"fullname", .text⟩, ⟨"contactkey", .uuid⟩]⟩ := by
    rfl
  obtain ⟨-, hid, -, -, -, hcount, -, huuid⟩ := build_ofCalls h
  refine ⟨_, h, hid, hcount, huuid.mpr ?_⟩
  intro type hcall
  simpa [contactCalls, build] using hcall

theorem exists_build_not_uuid : ∃ entity calls builder, ofCalls entity calls = .ok builder ∧
    builder.build.attribute? builder.build.primaryId ≠
      some ⟨builder.build.primaryId, .uuid⟩ :=
  ⟨"account", [.declare "accountid" .text], ⟨"account", none, [⟨"accountid", .text⟩]⟩, rfl,
    by decide⟩

end RecordQuery.SchemaBuilder
