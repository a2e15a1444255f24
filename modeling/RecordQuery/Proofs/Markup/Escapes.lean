import Mathlib.Data.List.Basic
import RecordQuery.Markup.CharacterData
import RecordQuery.Markup.Event
import RecordQuery.Markup.Writer

namespace RecordQuery.Markup

def isEscaped (c : Char) : Bool :=
  c == '&' || c == '<' || c == '>' || c == '"' || c == '\''

def Character.escaped (c : Char) : Character :=
  if isEscaped c then .referenced c else .literal c

theorem escapeChar_of_not_isEscaped {c : Char} (h : isEscaped c = false) : escapeChar c = [c] := by
  unfold escapeChar
  split <;> first | rfl | contradiction

theorem isEscaped_cases {c : Char} (h : isEscaped c = true) :
    c = '&' ∨ c = '<' ∨ c = '>' ∨ c = '"' ∨ c = '\'' := by
  simpa [isEscaped, or_assoc] using h

theorem not_isEscaped_of_isSpace {c : Char} (h : isSpace c = true) : isEscaped c = false := by
  rw [Bool.eq_false_iff]
  intro hescaped
  rcases isEscaped_cases hescaped with rfl | rfl | rfl | rfl | rfl <;> contradiction

namespace Character

theorem ofCharsFrom?_escapeChar (c : Char) (rest : List Char) :
    ofCharsFrom? none (escapeChar c ++ rest) =
      (ofCharsFrom? none rest).map (escaped c :: ·) := by
  cases h : isEscaped c with
  | true => rcases isEscaped_cases h with rfl | rfl | rfl | rfl | rfl <;> rfl
  | false =>
    have hamp : c ≠ '&' := by
      rintro rfl
      contradiction
    rw [escapeChar_of_not_isEscaped h, List.singleton_append, ofCharsFrom?, if_neg hamp]
    simp [escaped, h]

theorem ofChars?_escape (text : String) :
    ofChars? (escape text) = some (text.toList.map escaped) := by
  unfold ofChars? escape
  induction text.toList with
  | nil => rfl
  | cons c rest ih => rw [List.flatMap_cons, ofCharsFrom?_escapeChar, ih]; rfl

theorem escaped_of_isEscaped {c : Char} (h : isEscaped c = true) : escaped c = .referenced c :=
  if_pos h

theorem escaped_of_not_isEscaped {c : Char} (h : isEscaped c = false) : escaped c = .literal c :=
  if_neg (Bool.eq_false_iff.mp h)

def lineEnd (afterReference : Bool) (rest : List Char) : List Char :=
  if rest.head?.any isEscaped || (rest.isEmpty && afterReference) then ['\r']
  else if rest.head? = some '\n' then []
  else ['\n']

theorem withLineFeeds_return (afterReference : Bool) (rest : List Char) :
    withLineFeeds afterReference (('\r' :: rest).map escaped) =
      lineEnd afterReference rest ++ withLineFeeds false (rest.map escaped) := by
  have hreturn : escaped '\r' = .literal '\r' := rfl
  cases rest with
  | nil => cases afterReference <;> rfl
  | cons d others =>
    cases hd : isEscaped d with
    | true => simp [hreturn, withLineFeeds, lineEnd, escaped_of_isEscaped hd, hd]
    | false =>
      simp only [List.map_cons, hreturn, escaped_of_not_isEscaped hd, withLineFeeds, lineEnd,
        List.head?_cons, Option.any_some, hd]
      by_cases hfeed : d = '\n' <;> simp [hfeed]

theorem withLineFeeds_other {c : Char} (hc : c ≠ '\r') (afterReference : Bool)
    (rest : List Char) : withLineFeeds afterReference ((c :: rest).map escaped) =
      c :: withLineFeeds (isEscaped c) (rest.map escaped) := by
  cases h : isEscaped c with
  | true => simp [withLineFeeds, escaped_of_isEscaped h]
  | false => simp [withLineFeeds, escaped_of_not_isEscaped h, hc]

theorem withLineFeeds_eq_nil_iff (afterReference : Bool) (chars : List Char) :
    withLineFeeds afterReference (chars.map escaped) = [] ↔ chars = [] := by
  induction chars generalizing afterReference with
  | nil => simp [withLineFeeds]
  | cons c rest ih =>
    by_cases hc : c = '\r'
    · subst hc
      rw [withLineFeeds_return, List.append_eq_nil_iff, ih]
      unfold lineEnd
      cases rest <;> simp
      split <;> simp
    · rw [withLineFeeds_other hc]
      simp

theorem all_isSpace_withLineFeeds (afterReference : Bool) (chars : List Char) :
    (withLineFeeds afterReference (chars.map escaped)).all isSpace = chars.all isSpace := by
  induction chars generalizing afterReference with
  | nil => simp [withLineFeeds]
  | cons c rest ih =>
    by_cases hc : c = '\r'
    · subst hc
      have hend : (lineEnd afterReference rest).all isSpace = true := by
        unfold lineEnd
        split
        · rfl
        · split <;> rfl
      rw [withLineFeeds_return, List.all_append, ih, hend]
      rfl
    · rw [withLineFeeds_other hc, List.all_cons, List.all_cons, ih]

def KeepsReturnsFrom (afterReference : Bool) (chars : List Char) : Prop :=
  ∀ front behind, chars = front ++ '\r' :: behind →
    behind.head?.any isEscaped = true ∨
      behind = [] ∧ (front.getLast?.map isEscaped).getD afterReference = true

theorem keepsReturnsFrom_cons_iff (afterReference : Bool) (c : Char) (rest : List Char) :
    KeepsReturnsFrom afterReference (c :: rest) ↔
      (c = '\r' → rest.head?.any isEscaped = true ∨ rest = [] ∧ afterReference = true) ∧
        KeepsReturnsFrom (isEscaped c) rest := by
  constructor
  · intro h
    refine ⟨fun hc => h [] rest (by rw [hc]; rfl), fun front behind hrest => ?_⟩
    have hkept := h (c :: front) behind (by rw [hrest]; rfl)
    simpa [List.getLast?_cons] using hkept
  · rintro ⟨hfirst, hrest⟩ front behind heq
    cases front with
    | nil =>
      obtain ⟨rfl, rfl⟩ := List.cons.inj heq
      exact hfirst rfl
    | cons d others =>
      obtain ⟨rfl, rfl⟩ := List.cons.inj heq
      simpa [List.getLast?_cons] using hrest others behind rfl

theorem withLineFeeds_eq_self_iff (afterReference : Bool) (chars : List Char) :
    withLineFeeds afterReference (chars.map escaped) = chars ↔
      KeepsReturnsFrom afterReference chars := by
  induction chars generalizing afterReference with
  | nil => simp [withLineFeeds, KeepsReturnsFrom]
  | cons c rest ih =>
    rw [keepsReturnsFrom_cons_iff]
    by_cases hc : c = '\r'
    · subst hc
      rw [withLineFeeds_return, lineEnd]
      by_cases hkept : (rest.head?.any isEscaped || (rest.isEmpty && afterReference)) = true
      · rw [if_pos hkept, List.singleton_append, List.cons_inj_right, ih]
        simp only [Bool.or_eq_true, Bool.and_eq_true, List.isEmpty_iff] at hkept
        exact ⟨fun h => ⟨fun _ => hkept, h⟩, And.right⟩
      · rw [if_neg hkept]
        simp only [Bool.or_eq_true, Bool.and_eq_true, List.isEmpty_iff] at hkept
        refine iff_of_false ?_ fun h => hkept (h.1 rfl)
        -- What is read begins with a line feed: with this one, or with the next character.
        by_cases hfeed : rest.head? = some '\n'
        · obtain ⟨more, rfl⟩ := List.head?_eq_some_iff.mp hfeed
          rw [if_pos hfeed, List.nil_append, withLineFeeds_other (by decide)]
          simp
        · rw [if_neg hfeed]
          simp
    · rw [withLineFeeds_other hc, List.cons_inj_right, ih]
      simp [hc]

theorem map_escaped_of_spaces {chars : List Char} (h : chars.all isSpace = true) :
    chars.map escaped = chars.map literal := by
  apply List.map_congr_left
  intro c hc
  exact escaped_of_not_isEscaped (not_isEscaped_of_isSpace (List.all_eq_true.mp h c hc))

theorem withSpaces_escaped {chars : List Char}
    (h : ∀ c ∈ chars, c ≠ '\t' ∧ c ≠ '\r' ∧ c ≠ '\n') : withSpaces (chars.map escaped) = chars := by
  induction chars with
  | nil => rfl
  | cons c rest ih =>
    obtain ⟨htab, hreturn, hfeed⟩ := h c List.mem_cons_self
    have hrest := ih fun d hd => h d (List.mem_cons_of_mem _ hd)
    cases hc : isEscaped c with
    | true => simp [escaped, hc, withSpaces, hrest]
    | false =>
      have hspace : (if isSpace c then ' ' else c) = c := by
        by_cases heq : c = ' '
        · rw [heq]
          rfl
        · simp [isSpace, heq, htab, hreturn, hfeed]
      simp [escaped, hc, withSpaces, hrest, hreturn, hspace]

theorem withSpaces_eq_self {chars : List Char} (h : ' ' ∉ withSpaces (chars.map escaped)) :
    withSpaces (chars.map escaped) = chars := by
  induction chars with
  | nil => rfl
  | cons c rest ih =>
    rw [List.map_cons] at h ⊢
    cases hc : isEscaped c with
    | true =>
      simp only [escaped_of_isEscaped hc, withSpaces, List.mem_cons, not_or] at h ⊢
      rw [ih h.2]
    | false =>
      rw [escaped_of_not_isEscaped hc, withSpaces] at h ⊢
      split at h
      · rename_i hfeed
        obtain ⟨more, hmore⟩ := List.head?_eq_some_iff.mp hfeed.2
        rw [hmore] at h
        simp [withSpaces, isSpace] at h
      · rename_i hfeed
        simp only [List.mem_cons, not_or] at h
        have hspace : isSpace c = false := by
          by_contra hspace
          simp [hspace] at h
        rw [if_neg hfeed, ih h.2, hspace]
        rfl

end Character

def normalText (text : String) : String :=
  String.ofList (Character.withLineFeeds false (text.toList.map Character.escaped))

def normalValue (text : String) : String :=
  String.ofList (Character.withSpaces (text.toList.map Character.escaped))

theorem textOf?_escape (text : String) : textOf? (escape text) = some (normalText text) := by
  rw [textOf?, Character.ofChars?_escape, Option.map_some, normalText]

theorem valueOf?_escape (text : String) : valueOf? (escape text) = some (normalValue text) := by
  rw [valueOf?, Character.ofChars?_escape, Option.map_some, normalValue]

theorem plainText_of_spaces {text : String} (h : text.toList.all isSpace = true) :
    plainText text.toList = normalText text := by
  rw [plainText, normalText, Character.map_escaped_of_spaces h]

theorem normalText_eq_empty_iff (text : String) : normalText text = "" ↔ text = "" := by
  have hempty (other : String) : other = "" ↔ other.toList = [] := String.toList_inj.symm
  rw [hempty, hempty, normalText, String.toList_ofList]
  exact Character.withLineFeeds_eq_nil_iff false text.toList

theorem all_isSpace_normalText (text : String) :
    (normalText text).toList.all isSpace = text.toList.all isSpace := by
  rw [normalText, String.toList_ofList, Character.all_isSpace_withLineFeeds]

/-- Every carriage return of the text stands in front of a character that is escaped, or at the end
and behind one. -/
def KeepsReturns (text : String) : Prop :=
  ∀ front behind, text.toList = front ++ '\r' :: behind →
    behind.head?.any isEscaped = true ∨ behind = [] ∧ front.getLast?.any isEscaped = true

theorem normalText_eq_self_iff (text : String) : normalText text = text ↔ KeepsReturns text := by
  have hfrom : Character.KeepsReturnsFrom false text.toList ↔ KeepsReturns text := by
    unfold Character.KeepsReturnsFrom KeepsReturns
    have hflag : ∀ front : List Char,
        (front.getLast?.map isEscaped).getD false = front.getLast?.any isEscaped := by
      intro front
      cases front.getLast? <;> rfl
    simp only [hflag]
  rw [← hfrom, ← Character.withLineFeeds_eq_self_iff, normalText, ← String.toList_inj,
    String.toList_ofList]

theorem normalText_eq_self {text : String} (h : '\r' ∉ text.toList) : normalText text = text := by
  rw [normalText_eq_self_iff]
  intro front behind heq
  rw [heq] at h
  simp at h

theorem normalValue_eq_self {text : String}
    (h : ∀ c ∈ text.toList, c ≠ '\t' ∧ c ≠ '\r' ∧ c ≠ '\n') : normalValue text = text := by
  rw [normalValue, Character.withSpaces_escaped h, String.ofList_toList]

theorem normalValue_of_not_mem {text : String} (h : ' ' ∉ (normalValue text).toList) :
    normalValue text = text := by
  rw [normalValue, String.toList_ofList] at h
  rw [normalValue, Character.withSpaces_eq_self h, String.ofList_toList]

theorem not_mem_escape {mark : Char} (text : String)
    (h : mark = '<' ∨ mark = '>' ∨ mark = '"') : mark ∉ escape text := by
  unfold escape
  rw [List.mem_flatMap]
  rintro ⟨c, -, hmem⟩
  cases hc : isEscaped c with
  | true =>
    rcases isEscaped_cases hc with rfl | rfl | rfl | rfl | rfl <;>
      rcases h with rfl | rfl | rfl <;> revert hmem <;> decide
  | false =>
    rw [escapeChar_of_not_isEscaped hc] at hmem
    obtain rfl := List.mem_singleton.mp hmem
    rcases h with rfl | rfl | rfl <;> contradiction

theorem escape_eq_nil_iff {text : String} : escape text = [] ↔ text = "" := by
  constructor
  · intro h
    rw [escape, List.flatMap_eq_nil_iff] at h
    apply String.toList_inj.mp
    apply List.eq_nil_iff_forall_not_mem.mpr
    intro c hc
    have hchar := h c hc
    cases hescaped : isEscaped c with
    | true => rcases isEscaped_cases hescaped with rfl | rfl | rfl | rfl | rfl <;> contradiction
    | false =>
      rw [escapeChar_of_not_isEscaped hescaped] at hchar
      contradiction
  · rintro rfl
    rfl

theorem all_isSpace_escape (text : String) :
    (escape text).all isSpace = text.toList.all isSpace := by
  unfold escape
  induction text.toList with
  | nil => rfl
  | cons c rest ih =>
    rw [List.flatMap_cons, List.all_append, ih, List.all_cons]
    congr 1
    cases hc : isEscaped c with
    | true => rcases isEscaped_cases hc with rfl | rfl | rfl | rfl | rfl <;> decide
    | false => simp [escapeChar_of_not_isEscaped hc]

theorem escape_of_spaces {text : String} (h : text.toList.all isSpace = true) :
    escape text = text.toList := by
  have hchar : ∀ c ∈ text.toList, escapeChar c = [c] := fun c hc =>
    escapeChar_of_not_isEscaped (not_isEscaped_of_isSpace (List.all_eq_true.mp h c hc))
  unfold escape
  rw [List.flatMap_congr hchar, List.flatMap_singleton']

theorem all_isAllowed_escape {text : String} (h : text.toList.all isAllowed = true) :
    (escape text).all isAllowed = true := by
  unfold escape
  rw [List.all_flatMap, List.all_eq_true]
  intro c hc
  have hallowed := List.all_eq_true.mp h c hc
  cases hescaped : isEscaped c with
  | true => rcases isEscaped_cases hescaped with rfl | rfl | rfl | rfl | rfl <;> decide
  | false => simp [escapeChar_of_not_isEscaped hescaped, hallowed]

end RecordQuery.Markup
