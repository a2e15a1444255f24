import Mathlib.Data.List.TakeWhile
import RecordQuery.Proofs.Markup.Escapes

namespace RecordQuery.Markup

def isPlainName (name : String) : Bool :=
  name.toList.head?.any startsName && name.toList.all continuesName && !name.toList.contains ':' &&
    name.toList.all isAllowed && name != "xmlns"

def isAttributeText (text : String) : Bool :=
  text.toList.all fun c => isAllowed c && c != '\t' && c != '\r' && c != '\n'

def isElementText (text : String) : Bool :=
  text.toList.all fun c => isAllowed c && c != '\r'

theorem isAttributeText_iff {text : String} : isAttributeText text = true ↔
    text.toList.all isAllowed = true ∧ ∀ c ∈ text.toList, c ≠ '\t' ∧ c ≠ '\r' ∧ c ≠ '\n' := by
  simp only [isAttributeText, List.all_eq_true, Bool.and_eq_true, bne_iff_ne, ne_eq]
  constructor
  · intro h
    exact ⟨fun c hc => (h c hc).1.1.1, fun c hc => ⟨(h c hc).1.1.2, (h c hc).1.2, (h c hc).2⟩⟩
  · rintro ⟨hallowed, hspaces⟩ c hc
    obtain ⟨htab, hreturn, hfeed⟩ := hspaces c hc
    exact ⟨⟨⟨hallowed c hc, htab⟩, hreturn⟩, hfeed⟩

theorem isElementText_iff {text : String} : isElementText text = true ↔
    text.toList.all isAllowed = true ∧ '\r' ∉ text.toList := by
  simp only [isElementText, List.all_eq_true, Bool.and_eq_true, bne_iff_ne, ne_eq]
  constructor
  · intro h
    exact ⟨fun c hc => (h c hc).1, fun hc => (h _ hc).2 rfl⟩
  · rintro ⟨hallowed, hreturn⟩ c hc
    refine ⟨hallowed c hc, ?_⟩
    rintro rfl
    exact hreturn hc

section Lists

variable {p : Char → Bool} {front : List Char} {mark : Char} (behind : List Char)

theorem takeWhile_mark (hfront : ∀ c ∈ front, p c = true) (hmark : p mark = false) :
    (front ++ mark :: behind).takeWhile p = front := by
  rw [List.takeWhile_append_of_pos hfront, List.takeWhile_cons_of_neg (by simp [hmark]),
    List.append_nil]

theorem dropWhile_mark (hfront : ∀ c ∈ front, p c = true) (hmark : p mark = false) :
    (front ++ mark :: behind).dropWhile p = mark :: behind := by
  rw [List.dropWhile_append_of_pos hfront, List.dropWhile_cons_of_neg (by simp [hmark])]

end Lists

section Names

variable {name : String} (h : isPlainName name = true)

include h

theorem all_continuesName : ∀ c ∈ name.toList, continuesName c = true := by
  simp only [isPlainName, Bool.and_eq_true, List.all_eq_true] at h
  exact h.1.1.1.2

theorem all_isAllowed_name : name.toList.all isAllowed = true := by
  simp only [isPlainName, Bool.and_eq_true] at h
  exact h.1.2

theorem exists_cons_name : ∃ c rest, name.toList = c :: rest ∧ startsName c = true := by
  simp only [isPlainName, Bool.and_eq_true] at h
  cases hname : name.toList with
  | nil => simp [hname] at h
  | cons c rest => exact ⟨c, rest, rfl, by simpa [hname] using h.1.1.1.1⟩

theorem ofChars?_name : QualifiedName.ofChars? name.toList = some ⟨"", name⟩ := by
  simp only [isPlainName, Bool.and_eq_true, Bool.not_eq_true'] at h
  obtain ⟨⟨⟨⟨hstarts, -⟩, hplain⟩, -⟩, -⟩ := h
  have hcolon : ':' ∉ name.toList := by simpa using hplain
  have hdrop : name.toList.dropWhile (· != ':') = [] := by
    rw [List.dropWhile_eq_nil_iff]
    intro d hd
    have hne : d ≠ ':' := by
      rintro rfl
      exact hcolon hd
    simpa using hne
  simp only [QualifiedName.ofChars?, hdrop]
  rw [QualifiedName.ofParts?, hstarts, hplain, String.ofList_toList]
  rfl

theorem readName?_mark {mark : Char} (hmark : continuesName mark = false) (behind : List Char) :
    QualifiedName.read? (name.toList ++ mark :: behind) =
      some (⟨"", name⟩, mark :: behind) := by
  rw [QualifiedName.read?, takeWhile_mark behind (all_continuesName h) hmark,
    dropWhile_mark behind (all_continuesName h) hmark, ofChars?_name h]
  rfl

theorem readAttribute?_write (value : String) (behind : List Char) :
    readAttribute? (name.toList ++ '=' :: '"' :: (escape value ++ '"' :: behind)) =
      some ((⟨"", name⟩, escape value), behind) := by
  have hinside : ∀ c ∈ escape value, (!(c == '"' || c == '<')) = true := by
    intro c hc
    have hquote : c ≠ '"' := by
      rintro rfl
      exact not_mem_escape value (Or.inr (Or.inr rfl)) hc
    have hopen : c ≠ '<' := by
      rintro rfl
      exact not_mem_escape value (Or.inl rfl) hc
    simp [hquote, hopen]
  have hequals : skipSpaces ('=' :: '"' :: (escape value ++ '"' :: behind)) =
      '=' :: '"' :: (escape value ++ '"' :: behind) := rfl
  have hquote : skipSpaces ('"' :: (escape value ++ '"' :: behind)) =
      '"' :: (escape value ++ '"' :: behind) := rfl
  rw [readAttribute?, readName?_mark h (by decide), Option.bind_some]
  simp only [hequals, hquote]
  rw [dropWhile_mark behind hinside (by decide), takeWhile_mark behind hinside (by decide)]
  rfl

end Names

theorem ne_of_startsName {c mark : Char} (hc : startsName c = true)
    (hmark : startsName mark = false) : c ≠ mark := by
  rintro rfl
  rw [hc] at hmark
  contradiction

theorem not_isSpace_of_startsName {c : Char} (hc : startsName c = true) : isSpace c = false := by
  rw [Bool.eq_false_iff]
  intro hspace
  have hcases : c = ' ' ∨ c = '\t' ∨ c = '\r' ∨ c = '\n' := by
    simpa [isSpace, or_assoc] using hspace
  rcases hcases with rfl | rfl | rfl | rfl <;> exact absurd hc (by decide)

def plainAttribute (a : String × String) : TagAttribute := (⟨"", a.1⟩, a.2)

def normalAttribute (a : String × String) : String × String := (a.1, normalValue a.2)

theorem normalValue_of_isAttributeText {text : String} (h : isAttributeText text = true) :
    normalValue text = text :=
  normalValue_eq_self (isAttributeText_iff.mp h).2

theorem normalAttribute_eq_self {a : String × String} (h : isAttributeText a.2 = true) :
    normalAttribute a = a :=
  Prod.ext rfl (normalValue_of_isAttributeText h)

def tagEnd (closes : Bool) : List Char := if closes then ['/', '>'] else ['>']

theorem readTagEnd?_write {attributes : List (String × String)}
    (h : ∀ a ∈ attributes, isPlainName a.1 = true) (closes : Bool) (behind : List Char) :
    readTagEnd? (attributes.flatMap writeAttribute ++ (tagEnd closes ++ behind)) =
      some (((attributes.map normalAttribute).map plainAttribute, closes), behind) := by
  induction attributes with
  | nil =>
    rw [readTagEnd?]
    cases closes <;> rfl
  | cons a rest ih =>
    obtain ⟨name, value⟩ := a
    have hname := h _ List.mem_cons_self
    obtain ⟨c, others, hchars, hstarts⟩ := exists_cons_name hname
    have hwrite : (((name, value) :: rest).flatMap writeAttribute ++ (tagEnd closes ++ behind)) =
        ' ' :: (name.toList ++ '=' :: '"' :: (escape value ++ '"' ::
          (rest.flatMap writeAttribute ++ (tagEnd closes ++ behind)))) := by
      simp [writeAttribute]
    have hrest := ih fun a ha => h a (List.mem_cons_of_mem _ ha)
    rw [hwrite]
    generalize rest.flatMap writeAttribute ++ (tagEnd closes ++ behind) = more at hrest
    have hskip : skipSpaces (' ' :: (name.toList ++ '=' :: '"' :: (escape value ++ '"' :: more))) =
        name.toList ++ '=' :: '"' :: (escape value ++ '"' :: more) := by
      rw [hchars, skipSpaces, List.dropWhile_cons_of_pos (by decide), List.cons_append,
        List.dropWhile_cons_of_neg (by simp [not_isSpace_of_startsName hstarts])]
    rw [readTagEnd?, hskip]
    split
    · rename_i heq
      simp [hchars] at heq
    · rename_i heq
      rw [hchars] at heq
      exact absurd (List.cons.inj heq).1 (ne_of_startsName hstarts (by decide))
    · rename_i heq
      rw [hchars] at heq
      exact absurd (List.cons.inj heq).1 (ne_of_startsName hstarts (by decide))
    · rw [if_pos (by simp), readAttribute?_write hname]
      simp only
      rw [if_pos (by simp only [List.length_cons, List.length_append]; omega),
        valueOf?_escape, hrest]
      rfl

theorem read?_startsName {c : Char} (hc : startsName c = true) (rest : List Char) :
    Event.read? ('<' :: c :: rest) = Event.readTag? (c :: rest) := by
  have hne : ∀ mark, startsName mark = false → ∀ more, '<' :: c :: rest ≠ '<' :: mark :: more := by
    intro mark hmark more heq
    exact ne_of_startsName hc hmark (List.cons.inj (List.cons.inj heq).2).1
  unfold Event.read?
  split
  · rename_i heq
    exact absurd heq (hne '?' (by decide) _)
  · rename_i heq
    exact absurd heq (hne '/' (by decide) _)
  · rename_i heq
    exact absurd heq (hne '!' (by decide) _)
  · rename_i heq
    exact absurd heq (hne '!' (by decide) _)
  · rename_i heq
    rw [(List.cons.inj heq).2]
  · rename_i hother
    exact absurd rfl (hother _)

theorem read?_tag {name : String} {attributes : List (String × String)}
    (hname : isPlainName name = true) (h : ∀ a ∈ attributes, isPlainName a.1 = true)
    (closes : Bool) (behind : List Char) :
    Event.read? ('<' :: (name.toList ++
        (attributes.flatMap writeAttribute ++ (tagEnd closes ++ behind)))) =
      some (.opening ⟨"", name⟩ ((attributes.map normalAttribute).map plainAttribute) ::
        (if closes then [.closing ⟨"", name⟩] else []), behind) := by
  obtain ⟨c, others, hchars, hstarts⟩ := exists_cons_name hname
  have hread : QualifiedName.read? (name.toList ++
      (attributes.flatMap writeAttribute ++ (tagEnd closes ++ behind))) =
      some (⟨"", name⟩, attributes.flatMap writeAttribute ++ (tagEnd closes ++ behind)) := by
    cases attributes with
    | nil => cases closes <;> exact readName?_mark hname (by decide) _
    | cons a rest => exact readName?_mark hname (by decide) _
  have htag : Event.readTag? (name.toList ++
      (attributes.flatMap writeAttribute ++ (tagEnd closes ++ behind))) =
      some (.opening ⟨"", name⟩ ((attributes.map normalAttribute).map plainAttribute) ::
        (if closes then [.closing ⟨"", name⟩] else []), behind) := by
    rw [Event.readTag?, hread, Option.bind_some]
    simp only [readTagEnd?_write h, Option.map_some]
  rw [hchars] at htag ⊢
  exact (read?_startsName hstarts _).trans htag

theorem read?_closingTag {name : String} (hname : isPlainName name = true) (behind : List Char) :
    Event.read? ('<' :: '/' :: (name.toList ++ '>' :: behind)) =
      some ([.closing ⟨"", name⟩], behind) := by
  have hclosing : Event.read? ('<' :: '/' :: (name.toList ++ '>' :: behind)) =
      Event.readClosingTag? (name.toList ++ '>' :: behind) := by
    unfold Event.read?
    rfl
  rw [hclosing, Event.readClosingTag?, readName?_mark hname (by decide), Option.bind_some]
  rfl

def textEvents (text : String) : List Event :=
  if text = "" then []
  else if text.toList.all isSpace then [.spaces text]
  else [.text text]

theorem mem_of_hasMark {mark text : List Char} (h : hasMark mark text = true) :
    ∀ c ∈ mark, c ∈ text := by
  induction text with
  | nil => contradiction
  | cons first rest ih =>
    unfold hasMark splitAtMark? at h
    intro c hc
    split at h
    · rename_i behind hprefix
      rw [List.isPrefixOf?_eq_some_iff_append_eq] at hprefix
      rw [← hprefix]
      exact List.mem_append_left _ hc
    · rw [Option.isSome_map] at h
      exact List.mem_cons_of_mem _ (ih h c hc)

theorem ofText?_escape (text : String) :
    Event.ofText? (escape text) = some (if text.toList.all isSpace then .spaces (normalText text)
      else .text (normalText text)) := by
  unfold Event.ofText?
  rw [all_isSpace_escape]
  split
  · rename_i hspaces
    rw [escape_of_spaces hspaces, plainText_of_spaces hspaces]
  · have hmark : hasMark "]]>".toList (escape text) = false := by
      rw [Bool.eq_false_iff]
      intro hmark
      exact not_mem_escape text (Or.inr (Or.inl rfl)) (mem_of_hasMark hmark '>' (by decide))
    rw [hmark, textOf?_escape]
    rfl

theorem read?_text {text : String} (hnonempty : text ≠ "") (behind : List Char) :
    Event.read? (escape text ++ '<' :: behind) =
      some (textEvents (normalText text), '<' :: behind) := by
  have hfront : ∀ c ∈ escape text, (c != '<') = true := by
    intro c hc
    have hne : c ≠ '<' := by
      rintro rfl
      exact not_mem_escape text (Or.inl rfl) hc
    simpa using hne
  have hread : Event.read? (escape text ++ '<' :: behind) =
      (Event.ofText? ((escape text ++ '<' :: behind).takeWhile (· != '<'))).map fun event =>
        ([event], (escape text ++ '<' :: behind).dropWhile (· != '<')) := by
    obtain ⟨c, rest, hescape⟩ := List.exists_cons_of_ne_nil (mt escape_eq_nil_iff.mp hnonempty)
    have hne : ∀ more, escape text ++ '<' :: behind ≠ '<' :: more := by
      intro more heq
      rw [hescape] at heq hfront
      have hc := hfront c List.mem_cons_self
      rw [(List.cons.inj heq).1] at hc
      contradiction
    unfold Event.read?
    split
    · exact absurd ‹_› (hne _)
    · exact absurd ‹_› (hne _)
    · exact absurd ‹_› (hne _)
    · exact absurd ‹_› (hne _)
    · exact absurd ‹_› (hne _)
    · rfl
  rw [hread, takeWhile_mark behind hfront (by decide), dropWhile_mark behind hfront (by decide),
    ofText?_escape, Option.map_some, textEvents,
    if_neg (mt (normalText_eq_empty_iff text).mp hnonempty), all_isSpace_normalText]
  split <;> rfl

end RecordQuery.Markup
