import Mathlib.Data.List.TakeWhile
import RecordQuery.Proofs.Pattern.Elements

namespace RecordQuery

theorem Text.anySuffix_iff {property : List Char → Bool} {text : List Char} :
    anySuffix property text = true ↔
      ∃ piece rest, text = piece ++ rest ∧ property rest = true := by
  induction text with
  | nil => simp [anySuffix]
  | cons c text ih =>
    rw [anySuffix, Bool.or_eq_true, ih]
    constructor
    · rintro (h | ⟨piece, rest, rfl, h⟩)
      · exact ⟨[], c :: text, rfl, h⟩
      · exact ⟨c :: piece, rest, rfl, h⟩
    · rintro ⟨piece, rest, heq, h⟩
      cases piece with
      | nil =>
        rw [List.nil_append] at heq
        exact Or.inl (heq ▸ h)
      | cons d piece => exact Or.inr ⟨piece, rest, (List.cons.inj heq).2, h⟩

namespace Pattern

theorem listed_range_iff {c low high : Char} {rest : List Char} :
    Listed c (low :: '-' :: high :: rest) ↔ (low ≤ c ∧ c ≤ high) ∨ Listed c rest := by
  constructor
  · intro h
    cases h with
    | range hlow hhigh => exact Or.inl ⟨hlow, hhigh⟩
    | behindRange h => exact Or.inr h
    | char h => exact absurd ⟨_, _, _, rfl⟩ h
    | behindChar h => exact absurd ⟨_, _, _, rfl⟩ h
  · rintro (⟨hlow, hhigh⟩ | h)
    · exact .range hlow hhigh
    · exact .behindRange h

theorem listed_char_iff {c other : Char} {rest : List Char} (h : ¬ StartsRange (other :: rest)) :
    Listed c (other :: rest) ↔ other = c ∨ Listed c rest := by
  constructor
  · intro hlisted
    cases hlisted with
    | range | behindRange => exact absurd ⟨_, _, _, rfl⟩ h
    | char => exact Or.inl rfl
    | behindChar _ hlisted => exact Or.inr hlisted
  · rintro (rfl | hlisted)
    · exact .char h
    · exact .behindChar h hlisted

theorem any_admits_iff {c : Char} {members : List Char} :
    (ClassItem.ofChars members).any (·.admits c) = true ↔ Listed c members := by
  induction members using ClassItem.ofChars.induct with
  | case1 low high rest ih =>
    rw [ClassItem.ofChars, List.any_cons, Bool.or_eq_true, ih, listed_range_iff]
    simp [ClassItem.admits]
  | case2 other rest hsingle ih =>
    have hstart : ¬ StartsRange (other :: rest) := by
      rintro ⟨_, high, rest', heq⟩
      exact hsingle high rest' (List.cons.inj heq).2
    rw [ClassItem.ofChars.eq_2 other rest hsingle, List.any_cons, Bool.or_eq_true, ih,
      listed_char_iff hstart]
    simp [ClassItem.admits]
  | case3 =>
    rw [ClassItem.ofChars, List.any_nil]
    exact ⟨nofun, nofun⟩

end Pattern

namespace Token

open Pattern

variable {tokens : List Token} {elements : List Element} {text : List Char}

theorem closeClass?_closed {negated : Bool} {members rest : List Char} (h : ']' ∉ members) :
    closeClass? negated (members ++ ']' :: rest) =
      some (.oneOf negated (ClassItem.ofChars members), rest) := by
  rw [closeClass?, (span_bracket rest h).1, (span_bracket rest h).2]

theorem readClass?_inside {members rest : List Char} (h : ']' ∉ members)
    (hhead : members.head? ≠ some '^') :
    readClass? (members ++ ']' :: rest) =
      some (.oneOf false (ClassItem.ofChars members), rest) := by
  unfold readClass?
  split
  · rename_i inside heq
    cases members with
    | nil => cases heq
    | cons c members => simp [(List.cons.inj heq).1] at hhead
  · exact closeClass?_closed h

theorem readClass?_outside {members rest : List Char} (h : ']' ∉ members) :
    readClass? ('^' :: (members ++ ']' :: rest)) =
      some (.oneOf true (ClassItem.ofChars members), rest) :=
  closeClass?_closed h

theorem readClass?_eq_none {text : List Char} (h : ']' ∉ text) : readClass? text = none := by
  have hclose : ∀ (negated : Bool) (inside : List Char), ']' ∉ inside →
      closeClass? negated inside = none := by
    intro negated inside hinside
    have hall : inside.dropWhile (· != ']') = [] := List.dropWhile_eq_nil_iff.mpr fun c hc =>
      bne_iff_ne.mpr fun heq => hinside (heq ▸ hc)
    rw [closeClass?, hall]
  unfold readClass?
  split
  · exact hclose true _ fun hmem => h (List.mem_cons_of_mem _ hmem)
  · exact hclose false _ h

theorem ofChars_class {rest after : List Char} {token : Token}
    (h : readClass? rest = some (token, after)) :
    ofChars ('[' :: rest) = token :: ofChars after := by
  rw [ofChars]
  split
  · rename_i token' after' h'
    rw [h] at h'
    cases h'
    rfl
  · rename_i h'
    rw [h] at h'
    cases h'

theorem ofChars_bracket {rest : List Char} (h : readClass? rest = none) :
    ofChars ('[' :: rest) = .literal '[' :: ofChars rest := by
  rw [ofChars]
  split
  · rename_i h'
    rw [h] at h'
    cases h'
  · rfl

theorem ofChars_char {c : Char} (h : c ∉ ['%', '_', '[']) (rest : List Char) :
    ofChars (c :: rest) = .literal c :: ofChars rest := by
  simp only [List.mem_cons, List.not_mem_nil, or_false, not_or] at h
  exact ofChars.eq_5 c rest h.1 h.2.1 h.2.2

theorem allMatch_cons_iff {token : Token} (h : token ≠ .anySequence) :
    allMatch (token :: tokens) text = true ↔
      ∃ c rest, text = c :: rest ∧ token.admits c = true ∧ allMatch tokens rest = true := by
  cases text with
  | nil => simp [allMatch.eq_3 token tokens h]
  | cons c rest =>
    rw [allMatch.eq_4 token tokens c rest h, Bool.and_eq_true]
    constructor
    · rintro ⟨hc, hrest⟩
      exact ⟨c, rest, rfl, hc, hrest⟩
    · rintro ⟨_, _, heq, hc, hrest⟩
      cases heq
      exact ⟨hc, hrest⟩

theorem allMatch_consSequence_iff :
    allMatch (consSequence tokens) text = true ↔
      ∃ piece rest, text = piece ++ rest ∧ allMatch tokens rest = true := by
  unfold consSequence
  split
  · rename_i tokens
    rw [allMatch, Text.anySuffix_iff]
    constructor
    · rintro ⟨piece, rest, htext, hrest⟩
      refine ⟨piece, rest, htext, ?_⟩
      rw [allMatch, Text.anySuffix_iff]
      exact ⟨[], rest, rfl, hrest⟩
    · rintro ⟨piece, rest, rfl, hrest⟩
      rw [allMatch, Text.anySuffix_iff] at hrest
      obtain ⟨second, rest, rfl, hrest⟩ := hrest
      exact ⟨piece ++ second, rest, (List.append_assoc ..).symm, hrest⟩
  · rw [allMatch, Text.anySuffix_iff]

theorem allMatch_cons_iff_cuts {token : Token} {element : Element} (h : token ≠ .anySequence)
    (htakes : ∀ piece, element.Takes piece ↔ ∃ c, piece = [c] ∧ token.admits c = true)
    (ih : ∀ text, allMatch tokens text = true ↔ Cuts elements text) :
    allMatch (token :: tokens) text = true ↔ Cuts (element :: elements) text := by
  rw [allMatch_cons_iff h, cuts_single htakes]
  simp only [ih]

theorem literal_takes {x : Char} (piece : List Char) :
    (Element.char x).Takes piece ↔ ∃ c, piece = [c] ∧ (literal x).admits c = true := by
  constructor
  · intro htakes
    cases htakes with
    | char => exact ⟨x, rfl, beq_self_eq_true x⟩
  · rintro ⟨c, rfl, hc⟩
    obtain rfl := eq_of_beq hc
    exact .char x

theorem allMatch_ofChars_iff {pattern : List Char} (h : Reads pattern elements) :
    ∀ text, allMatch (ofChars pattern) text = true ↔ Cuts elements text := by
  induction h with
  | nil =>
    intro text
    rw [ofChars, allMatch, List.isEmpty_iff, cuts_nil]
  | sequence _ ih =>
    intro text
    rw [ofChars, allMatch_consSequence_iff, cuts_sequence]
    simp only [ih]
  | anyChar _ ih =>
    intro text
    rw [ofChars]
    refine allMatch_cons_iff_cuts (by simp) (fun piece => ⟨?_, ?_⟩) ih
    · intro htakes
      cases htakes with
      | anyChar c => exact ⟨c, rfl, rfl⟩
    · rintro ⟨c, rfl, -⟩
      exact .anyChar c
  | inside hmembers hhead _ ih =>
    intro text
    rw [ofChars_class (readClass?_inside hmembers hhead)]
    refine allMatch_cons_iff_cuts (by simp) (fun piece => ⟨?_, ?_⟩) ih
    · intro htakes
      cases htakes with
      | inside hlisted => exact ⟨_, rfl, by rw [admits, any_admits_iff.mpr hlisted]; rfl⟩
    · rintro ⟨c, rfl, hc⟩
      rw [admits, Bool.bne_false, any_admits_iff] at hc
      exact .inside hc
  | outside hmembers _ ih =>
    intro text
    rw [ofChars_class (readClass?_outside hmembers)]
    refine allMatch_cons_iff_cuts (by simp) (fun piece => ⟨?_, ?_⟩) ih
    · intro htakes
      cases htakes with
      | outside hlisted =>
        rw [← any_admits_iff] at hlisted
        exact ⟨_, rfl, by rwa [admits, Bool.bne_true, Bool.not_eq_true', ← Bool.not_eq_true]⟩
    · rintro ⟨c, rfl, hc⟩
      rw [admits, Bool.bne_true, Bool.not_eq_true', ← Bool.not_eq_true, any_admits_iff] at hc
      exact .outside hc
  | bracket hopen _ ih =>
    intro text
    rw [ofChars_bracket (readClass?_eq_none hopen)]
    exact allMatch_cons_iff_cuts (by simp) literal_takes ih
  | char hc _ ih =>
    intro text
    rw [ofChars_char hc]
    exact allMatch_cons_iff_cuts (by simp) literal_takes ih

theorem allMatch_nil : allMatch (ofChars []) [] = true := by
  rw [ofChars, allMatch, List.isEmpty_nil]

theorem ofChars_append {core : List Char} (h : ∀ c ∈ core, c ∉ ['%', '_', '['])
    (rest : List Char) : ofChars (core ++ rest) = core.map .literal ++ ofChars rest := by
  induction core with
  | nil => rfl
  | cons c core ih =>
    rw [List.cons_append, ofChars_char (h c List.mem_cons_self),
      ih fun d hd => h d (List.mem_cons_of_mem _ hd)]
    rfl

theorem allMatch_literals_iff {core : List Char} :
    allMatch (core.map .literal ++ tokens) text = true ↔
      ∃ rest, text = core ++ rest ∧ allMatch tokens rest = true := by
  induction core generalizing text with
  | nil => simp
  | cons c core ih =>
    rw [List.map_cons, List.cons_append, allMatch_cons_iff (by simp)]
    constructor
    · rintro ⟨d, behind, rfl, hd, hbehind⟩
      obtain ⟨rest, rfl, hrest⟩ := ih.mp hbehind
      obtain rfl := eq_of_beq hd
      exact ⟨rest, rfl, hrest⟩
    · rintro ⟨rest, rfl, hrest⟩
      exact ⟨c, core ++ rest, rfl, beq_self_eq_true c, ih.mpr ⟨rest, rfl, hrest⟩⟩

end Token

namespace Pattern

def Plain (core : List Char) : Prop := ∀ c ∈ core, c ∉ ['%', '_', '[']

inductive HasForm : List Char → Pattern → Prop
  | exact {core : List Char} : Plain core → HasForm core (.exact core)
  | startsWith {core : List Char} : Plain core → HasForm (core ++ ['%']) (.startsWith core)
  | endsWith {core : List Char} : Plain core → HasForm ('%' :: core) (.endsWith core)
  | contains {core : List Char} : Plain core → HasForm ('%' :: (core ++ ['%'])) (.contains core)
  | all : HasForm ['%'] (.contains [])
  | wildcard (pattern : List Char) : HasForm pattern (.wildcard (Token.ofChars pattern))

theorem hasForm_ofLowered (pattern : List Char) : HasForm pattern (ofLowered pattern) := by
  unfold ofLowered
  split
  · exact .wildcard pattern
  · rename_i hspecial
    simp only [Bool.or_eq_true, List.contains_iff_mem, not_or] at hspecial
    have hplain : ∀ {core : List Char}, core ⊆ pattern → ¬ core.contains '%' = true →
        Plain core := by
      intro core hsub hcore c hc
      simp only [List.mem_cons, List.not_mem_nil, or_false, not_or]
      refine ⟨?_, ?_, ?_⟩
      · rintro rfl
        exact hcore (List.contains_iff_mem.mpr hc)
      · rintro rfl
        exact hspecial.1 (hsub hc)
      · rintro rfl
        exact hspecial.2 (hsub hc)
    cases hleading : pattern.head? == some '%' with
    | false =>
      cases htrailing : pattern.getLast? == some '%' with
      | false =>
        simp only [Bool.false_eq_true, ↓reduceIte]
        split
        · exact .wildcard pattern
        · rename_i hcore
          exact .exact (hplain (List.Subset.refl _) hcore)
      | true =>
        obtain ⟨core, rfl⟩ := List.getLast?_eq_some_iff.mp (eq_of_beq htrailing)
        simp only [Bool.false_eq_true, ↓reduceIte, List.dropLast_concat]
        split
        · exact .wildcard _
        · rename_i hcore
          exact .startsWith (hplain (List.subset_append_left _ _) hcore)
    | true =>
      obtain ⟨body, rfl⟩ := List.head?_eq_some_iff.mp (eq_of_beq hleading)
      cases htrailing : ('%' :: body).getLast? == some '%' with
      | false =>
        simp only [Bool.false_eq_true, ↓reduceIte, List.tail_cons]
        split
        · exact .wildcard _
        · rename_i hcore
          exact .endsWith (hplain (List.subset_cons_self _ _) hcore)
      | true =>
        obtain ⟨front, hfront⟩ := List.getLast?_eq_some_iff.mp (eq_of_beq htrailing)
        simp only [↓reduceIte, List.tail_cons]
        cases front with
        | nil =>
          obtain rfl := (List.cons.inj hfront).2
          exact .all
        | cons c core =>
          have hbody : body = core ++ ['%'] := (List.cons.inj hfront).2
          subst hbody
          rw [List.dropLast_concat]
          split
          · exact .wildcard _
          · rename_i hcore
            exact .contains (hplain (fun d hd => by simp [hd]) hcore)

theorem allMatch_sequence (text : List Char) :
    Token.allMatch (Token.ofChars ['%']) text = true := by
  rw [Token.ofChars, Token.allMatch_consSequence_iff]
  exact ⟨text, [], (List.append_nil text).symm, Token.allMatch_nil⟩

theorem HasForm.admitsLowered_eq {pattern : List Char} {form : Pattern} (h : HasForm pattern form)
    (text : List Char) : form.admitsLowered text = Token.allMatch (Token.ofChars pattern) text := by
  have hfront : ∀ {core : List Char}, Plain core → ∀ rest : List Char,
      core.isPrefixOf rest = true ↔
        Token.allMatch (Token.ofChars (core ++ ['%'])) rest = true := by
    intro core hcore rest
    rw [Token.ofChars_append hcore, Token.allMatch_literals_iff, List.isPrefixOf_iff_prefix]
    constructor
    · rintro ⟨behind, rfl⟩
      exact ⟨behind, rfl, allMatch_sequence behind⟩
    · rintro ⟨behind, rfl, -⟩
      exact List.prefix_append core behind
  have hwhole : ∀ {core : List Char}, Plain core → ∀ rest : List Char,
      Token.allMatch (Token.ofChars core) rest = true ↔ rest = core := by
    intro core hcore rest
    have htokens := Token.ofChars_append hcore []
    rw [List.append_nil] at htokens
    rw [htokens, Token.allMatch_literals_iff]
    constructor
    · rintro ⟨behind, rfl, hbehind⟩
      rw [Token.ofChars, Token.allMatch, List.isEmpty_iff] at hbehind
      rw [hbehind, List.append_nil]
    · rintro rfl
      exact ⟨[], (List.append_nil rest).symm, Token.allMatch_nil⟩
  rw [Bool.eq_iff_iff]
  cases h with
  | wildcard => rfl
  | exact hcore => rw [admitsLowered, beq_iff_eq, hwhole hcore]
  | startsWith hcore => rw [admitsLowered, hfront hcore]
  | endsWith hcore =>
    rw [admitsLowered, List.isSuffixOf_iff_suffix, Token.ofChars, Token.allMatch_consSequence_iff]
    constructor
    · rintro ⟨piece, rfl⟩
      exact ⟨piece, _, rfl, (hwhole hcore _).mpr rfl⟩
    · rintro ⟨piece, rest, rfl, hrest⟩
      rw [(hwhole hcore rest).mp hrest]
      exact List.suffix_append _ _
  | contains hcore =>
    rw [admitsLowered, Text.anySuffix_iff, Token.ofChars, Token.allMatch_consSequence_iff]
    simp only [hfront hcore]
  | all =>
    rw [admitsLowered, Text.anySuffix_iff]
    exact iff_of_true ⟨text, [], (List.append_nil text).symm, rfl⟩ (allMatch_sequence text)

/-- A pattern is read as elements in one way, and admits a value just if the lower-case form of the
value can be cut into consecutive pieces, one for each element, that the elements take. The tokens
of the pattern admit the same values, also where it has a form of its own. -/
theorem admits_iff_cuts (pattern value : String) :
    ∃ elements, Reads (Text.lowerChars pattern.toList) elements ∧
      (∀ others, Reads (Text.lowerChars pattern.toList) others → others = elements) ∧
      ((ofString pattern).admits value = true ↔ Cuts elements (Text.lowerChars value.toList)) ∧
      (Token.allMatch (Token.ofChars (Text.lowerChars pattern.toList))
        (Text.lowerChars value.toList) = true ↔ Cuts elements (Text.lowerChars value.toList)) := by
  obtain ⟨elements, hreads⟩ := exists_reads (Text.lowerChars pattern.toList)
  have htokens := Token.allMatch_ofChars_iff hreads (Text.lowerChars value.toList)
  refine ⟨elements, hreads, fun others hothers => hreads.unique hothers, ?_, htokens⟩
  rw [admits, ofString, (hasForm_ofLowered _).admitsLowered_eq]
  exact htokens

end Pattern

end RecordQuery
