import RecordQuery.Proofs.Outcome
import RecordQuery.Proofs.Value.OperandTexts
import RecordQuery.Value.Options

namespace RecordQuery

open Text

namespace OptionSet

theorem insertCode_append {codes : List Int32} {code : Int32} (h : ∀ c ∈ codes, c < code) :
    insertCode code codes = codes ++ [code] := by
  induction codes with
  | nil => rfl
  | cons c rest ih =>
    have hlt := h c List.mem_cons_self
    rw [insertCode, if_neg (Int32.not_lt.mpr (Int32.le_of_lt hlt)), if_neg (Int32.ne_of_lt hlt).symm,
      ih fun d hd => h d (List.mem_cons_of_mem _ hd), List.cons_append]

theorem codes_foldl_insert {codes : List Int32} {set : OptionSet}
    (h : (set.codes ++ codes).Pairwise (· < ·)) :
    (codes.foldl insert set).codes = set.codes ++ codes := by
  induction codes generalizing set with
  | nil => exact (List.append_nil _).symm
  | cons code rest ih =>
    have hlt : ∀ c ∈ set.codes, c < code :=
      fun c hc => (List.pairwise_append.mp h).2.2 c hc code List.mem_cons_self
    have hinsert : (set.insert code).codes = set.codes ++ [code] := insertCode_append hlt
    rw [List.foldl_cons, ih, hinsert, List.append_assoc, List.singleton_append]
    rw [hinsert, List.append_assoc, List.singleton_append]
    exact h

theorem eq_of_codes {a b : OptionSet} (h : a.codes = b.codes) : a = b := by
  obtain ⟨codes, ascending⟩ := a
  obtain ⟨others, ascending'⟩ := b
  obtain rfl : codes = others := h
  rfl

theorem ofList_codes (set : OptionSet) : ofList set.codes = set :=
  eq_of_codes (@codes_foldl_insert set.codes empty set.ascending)

end OptionSet

namespace Value

def ReadAsCodes (texts : List String) (codes : List Int32) : Prop :=
  List.Forall₂ (fun text code => readInt32? (trimChars text.toList) = some code) texts codes

theorem readAsCodes_intText (codes : List Int32) :
    ReadAsCodes (codes.map fun code => intText code.toInt) codes := by
  rw [ReadAsCodes, List.forall₂_map_left_iff, List.forall₂_same]
  intro code _
  rw [trimChars_intText, readInt32?_intChars]

theorem optionCode?_text (text : String) :
    (Value.text text).optionCode? = readInt32? (trimChars text.toList) := rfl

theorem optionCode_eq_ok {value : Value} {code : Int32} :
    value.optionCode = .ok code ↔ value.optionCode? = some code := by
  unfold optionCode
  split
  · rename_i found hfound
    rw [hfound, Option.some.injEq, Except.ok.injEq]
  · rename_i hnone
    simp [hnone]

theorem optionCode_texts {value : Value} {code : Int32} (h : value.optionCode = .ok code) :
    ReadAsCodes value.operandTexts [code] := by
  have hcode : value.optionCode? = some code := optionCode_eq_ok.mp h
  rw [← operandTexts_unwrap]
  unfold optionCode? at hcode
  cases hvalue : value.unwrap with
  | text content =>
    rw [hvalue] at hcode
    exact .cons hcode .nil
  | option found =>
    rw [hvalue] at hcode
    obtain rfl := Option.some.inj hcode
    exact readAsCodes_intText [found]
  | int n =>
    rw [hvalue] at hcode
    dsimp only at hcode
    split at hcode
    · rename_i hfits
      obtain rfl := Option.some.inj hcode
      have hn : readInt32? (intChars n.toInt) = some n.toInt32 := by
        rw [readInt32?, readInt?_intChars, Option.bind_some, if_pos hfits, ← Int64.toInt32_ofInt,
          Int64.ofInt_toInt]
      refine .cons ?_ .nil
      change readInt32? (trimChars (intText n.toInt).toList) = _
      rw [trimChars_intText, hn]
    · contradiction
  | _ =>
    rw [hvalue] at hcode
    contradiction

theorem mapM_optionCode_texts {items : List Value} {codes : List Int32}
    (h : items.mapM optionCode = .ok codes) : ReadAsCodes (operandTextsAll items) codes := by
  induction items generalizing codes with
  | nil =>
    obtain rfl := Except.ok.inj h
    exact .nil
  | cons item rest ih =>
    rw [List.mapM_cons] at h
    obtain ⟨code, hcode, h⟩ := bind_eq_ok_iff.mp h
    obtain ⟨others, hothers, h⟩ := bind_eq_ok_iff.mp h
    obtain rfl := Except.ok.inj h
    rw [operandTextsAll]
    exact List.rel_append (optionCode_texts hcode) (ih hothers)

def ReadAsSet (texts : List String) (set : OptionSet) : Prop :=
  ∃ codes, set = OptionSet.ofList codes ∧ ReadAsCodes texts codes

theorem listedCodes_texts {items : List Value} {set : OptionSet}
    (h : listedCodes items = .ok set) : ReadAsSet (operandTextsAll items) set := by
  induction items using listedCodes.induct with
  | case1 inner ih =>
    have htexts : operandTextsAll [.list inner] = operandTextsAll inner := by
      simp [operandTextsAll, operandTexts]
    rw [listedCodes] at h
    rw [htexts]
    exact ih h
  | case2 items hnested =>
    have hcodes : listedCodes items = optionCodes items := by
      rw [listedCodes]
      exact hnested
    rw [hcodes] at h
    obtain ⟨codes, hread, rfl⟩ := map_eq_ok_iff.mp h
    exact ⟨codes, rfl, mapM_optionCode_texts hread⟩

theorem optionSet_texts {value : Value} {set : OptionSet} (h : value.optionSet = .ok set) :
    ReadAsSet value.operandTexts set := by
  rw [← operandTexts_unwrap]
  have hsingle : (optionCode value.unwrap).map OptionSet.singleton = .ok set →
      ReadAsSet value.unwrap.operandTexts set := by
    intro h
    obtain ⟨code, hcode, rfl⟩ := map_eq_ok_iff.mp h
    exact ⟨[code], rfl, optionCode_texts hcode⟩
  unfold optionSet at h
  cases hvalue : value.unwrap with
  | list items =>
    rw [hvalue] at h
    exact listedCodes_texts h
  | options codes =>
    rw [hvalue] at h
    obtain rfl := Except.ok.inj h
    exact ⟨codes.codes, codes.ofList_codes.symm, readAsCodes_intText codes.codes⟩
  | _ =>
    rw [hvalue] at h hsingle
    exact hsingle h

theorem operandOptionSet_texts {values : List Value} {set : OptionSet}
    (h : operandOptionSet values = .ok set) : ReadAsSet (operandTextsAll values) set := by
  unfold operandOptionSet at h
  split at h
  · rw [operandTextsAll, operandTextsAll, List.append_nil]
    exact optionSet_texts h
  · exact listedCodes_texts h

theorem operandOptionSet_texts_eq (texts : List String) :
    operandOptionSet (texts.map .text) = optionCodes (texts.map .text) := by
  match texts with
  | [] => rw [List.map_nil, operandOptionSet, listedCodes] <;> simp
  | [single] =>
    change (optionCode (.text single)).map OptionSet.singleton = optionCodes [.text single]
    rw [optionCodes, List.mapM_cons]
    cases optionCode (.text single) <;> rfl
  | first :: second :: rest =>
    rw [List.map_cons, List.map_cons, operandOptionSet, listedCodes] <;> simp

theorem operandOptionSet_map_text {texts : List String} {set : OptionSet}
    (h : ReadAsSet texts set) : operandOptionSet (texts.map .text) = .ok set := by
  obtain ⟨codes, rfl, hread⟩ := h
  have hcodes : (texts.map Value.text).mapM optionCode = .ok codes := by
    induction hread with
    | nil => rfl
    | cons hcode _ ih =>
      rw [List.map_cons, List.mapM_cons, ih,
        optionCode_eq_ok.mpr ((optionCode?_text _).trans hcode)]
      rfl
  rw [operandOptionSet_texts_eq, optionCodes, hcodes]
  rfl

theorem operandOptionSet_operandTexts {values : List Value} {set : OptionSet}
    (h : operandOptionSet values = .ok set) :
    operandOptionSet ((operandTextsAll values).map .text) = .ok set :=
  operandOptionSet_map_text (operandOptionSet_texts h)

end Value

end RecordQuery
