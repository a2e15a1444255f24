import Mathlib.Data.List.Nodup
import RecordQuery.Markup.Reader
import RecordQuery.Proofs.Markup.Tags

/-!
Documents, read back. What is written of an element gives its events, and these give the element
again, with the line ends of the reader and but for an empty text and for text beside child
elements, which leave no trace. If the reader keeps its texts, the element is read as it is.
-/

namespace RecordQuery.Markup

namespace Element

mutual

def Writable : Element → Prop
  | ⟨name, attributes, children, text?⟩ =>
    isPlainName name = true ∧
      (∀ a ∈ attributes, isPlainName a.1 = true ∧ isAttributeText a.2 = true) ∧
      (attributes.map Prod.fst).Nodup ∧ isElementText (text?.getD "") = true ∧ WritableAll children

def WritableAll : List Element → Prop
  | [] => True
  | element :: rest => element.Writable ∧ WritableAll rest

end

mutual

def Named : Element → Prop
  | ⟨name, attributes, children, _⟩ =>
    isPlainName name = true ∧ (∀ a ∈ attributes, isPlainName a.1 = true) ∧
      (attributes.map Prod.fst).Nodup ∧ NamedAll children

def NamedAll : List Element → Prop
  | [] => True
  | element :: rest => element.Named ∧ NamedAll rest

end

mutual

def normalized : Element → Element
  | ⟨name, attributes, children, text?⟩ =>
    ⟨name, attributes.map normalAttribute, normalizedAll children, text?.map normalText⟩

def normalizedAll : List Element → List Element
  | [] => []
  | element :: rest => element.normalized :: normalizedAll rest

end

mutual

def events : Element → List Event
  | ⟨name, attributes, children, text?⟩ =>
    .opening ⟨"", name⟩ (attributes.map plainAttribute) ::
      (eventsAll children ++ (textEvents (text?.getD "") ++ [.closing ⟨"", name⟩]))

def eventsAll : List Element → List Event
  | [] => []
  | element :: rest => element.events ++ eventsAll rest

end

mutual

def settled : Element → Element
  | ⟨name, attributes, children, text?⟩ =>
    ⟨name, attributes, settledAll children,
      if children.isEmpty then text?.filter (· != "") else none⟩

def settledAll : List Element → List Element
  | [] => []
  | element :: rest => element.settled :: settledAll rest

end

theorem exists_cons_chars (isShort : String → Bool) (element : Element) :
    ∃ rest, element.chars isShort = '<' :: (element.name.toList ++ rest) := by
  obtain ⟨name, attributes, children, text?⟩ := element
  simp only [chars, List.cons_append, List.append_assoc]
  exact ⟨_, rfl⟩

theorem charsAll_eq_nil {isShort : String → Bool} {elements : List Element}
    (h : charsAll isShort elements = []) : elements = [] := by
  cases elements with
  | nil => rfl
  | cons element rest =>
    obtain ⟨more, hchars⟩ := exists_cons_chars isShort element
    simp [charsAll, hchars] at h

end Element

namespace Event

theorem ofChars?_of_read? {text rest : List Char} {events : List Event}
    (h : read? text = some (events, rest)) (hlength : rest.length < text.length) :
    ofChars? text = (ofChars? rest).map (events ++ ·) := by
  cases text with
  | nil => contradiction
  | cons c tail =>
    rw [ofChars?]
    simp only [h, if_pos hlength]

theorem ofChars?_text (text : String) (behind : List Char) :
    ofChars? (escape text ++ '<' :: behind) =
      (ofChars? ('<' :: behind)).map (textEvents (normalText text) ++ ·) := by
  by_cases hempty : text = ""
  · subst hempty
    simp [escape, textEvents, normalText, Character.withLineFeeds]
  · apply ofChars?_of_read? (read?_text hempty behind)
    have hpos := List.length_pos_of_ne_nil (mt escape_eq_nil_iff.mp hempty)
    simp only [List.length_append]
    omega

theorem ofChars?_closingTag {name : String} (h : isPlainName name = true) (behind : List Char) :
    ofChars? ('<' :: '/' :: (name.toList ++ '>' :: behind)) =
      (ofChars? behind).map ([.closing ⟨"", name⟩] ++ ·) := by
  apply ofChars?_of_read? (read?_closingTag h behind)
  simp only [List.length_cons, List.length_append]
  omega

end Event

namespace Element

mutual

theorem ofChars?_chars (isShort : String → Bool) : (element : Element) → element.Named →
    ∀ behind, Event.ofChars? (element.chars isShort ++ behind) =
      (Event.ofChars? behind).map (element.normalized.events ++ ·)
  | ⟨name, attributes, children, text?⟩, h, behind => by
    obtain ⟨hname, hattributes, -, hchildren⟩ := h
    have hopen : ∀ closes more, Event.ofChars? ('<' :: (name.toList ++
        (attributes.flatMap writeAttribute ++ (tagEnd closes ++ more)))) =
        (Event.ofChars? more).map ((.opening ⟨"", name⟩
          ((attributes.map normalAttribute).map plainAttribute) ::
            if closes then [.closing ⟨"", name⟩] else []) ++ ·) := by
      intro closes more
      apply Event.ofChars?_of_read? (read?_tag hname hattributes closes more)
      simp only [List.length_cons, List.length_append]
      omega
    have htext : (text?.map normalText).getD "" = normalText (text?.getD "") := by
      cases text? <;> rfl
    -- One tag for an element of a short name with nothing inside, two tags for any other.
    by_cases hshort : (isShort name && (charsAll isShort children ++
        escape (text?.getD "")).isEmpty) = true
    · simp only [Bool.and_eq_true, List.isEmpty_iff, List.append_eq_nil_iff] at hshort
      obtain ⟨hname', hnone, hempty⟩ := hshort
      have hchars : chars isShort ⟨name, attributes, children, text?⟩ ++ behind =
          '<' :: (name.toList ++ (attributes.flatMap writeAttribute ++ (tagEnd true ++ behind))) := by
        simp [chars, hname', hnone, hempty, tagEnd]
      rw [hchars, hopen, charsAll_eq_nil hnone, normalized, events, htext,
        escape_eq_nil_iff.mp hempty]
      rfl
    · have hchars : chars isShort ⟨name, attributes, children, text?⟩ ++ behind =
          '<' :: (name.toList ++ (attributes.flatMap writeAttribute ++ (tagEnd false ++
            (charsAll isShort children ++ (escape (text?.getD "") ++
              '<' :: '/' :: (name.toList ++ '>' :: behind)))))) := by
        simp only [chars, if_neg hshort, tagEnd]
        simp
      rw [hchars, hopen, ofChars?_charsAll isShort children hchildren, Event.ofChars?_text,
        Event.ofChars?_closingTag hname, normalized, events, htext]
      simp only [Option.map_map]
      congr 1
      funext events
      simp

theorem ofChars?_charsAll (isShort : String → Bool) : (elements : List Element) →
    NamedAll elements → ∀ behind, Event.ofChars? (charsAll isShort elements ++ behind) =
      (Event.ofChars? behind).map (eventsAll (normalizedAll elements) ++ ·)
  | [], _, behind => by simp [charsAll, normalizedAll, eventsAll]
  | element :: rest, h, behind => by
    rw [charsAll, List.append_assoc, ofChars?_chars isShort element h.1,
      ofChars?_charsAll isShort rest h.2, Option.map_map, normalizedAll, eventsAll]
    congr 1
    funext events
    simp only [Function.comp_apply, List.append_assoc]

end

mutual

theorem all_isAllowed_chars (isShort : String → Bool) : (element : Element) → element.Writable →
    (element.chars isShort).all isAllowed = true
  | ⟨name, attributes, children, text?⟩, h => by
    obtain ⟨hname, hattributes, -, htext, hchildren⟩ := h
    have hwritten : (attributes.flatMap writeAttribute).all isAllowed = true := by
      rw [List.all_flatMap, List.all_eq_true]
      intro a ha
      obtain ⟨hkey, hvalue⟩ := hattributes a ha
      have hescape := all_isAllowed_escape (isAttributeText_iff.mp hvalue).1
      have hspecial : isAllowed ' ' = true ∧ isAllowed '=' = true ∧ isAllowed '"' = true := by decide
      simp [writeAttribute, List.all_append, all_isAllowed_name hkey, hescape, hspecial]
    have hcontent := all_isAllowed_charsAll isShort children hchildren
    have hescape := all_isAllowed_escape (isElementText_iff.mp htext).1
    have hspecial : isAllowed '<' = true ∧ isAllowed '>' = true ∧ isAllowed '/' = true := by decide
    unfold chars
    simp only [List.all_append, List.all_cons, all_isAllowed_name hname, hwritten]
    split <;> simp [List.all_append, all_isAllowed_name hname, hcontent, hescape, hspecial]

theorem all_isAllowed_charsAll (isShort : String → Bool) : (elements : List Element) →
    WritableAll elements → (charsAll isShort elements).all isAllowed = true
  | [], _ => rfl
  | element :: rest, h => by
    rw [charsAll, List.all_append, all_isAllowed_chars isShort element h.1,
      all_isAllowed_charsAll isShort rest h.2]
    rfl

end

theorem name_plain {element : Element} (h : element.Named) : isPlainName element.name = true := by
  obtain ⟨name, attributes, children, text?⟩ := element
  exact h.1

theorem ofDocument?_chars {isShort : String → Bool} {element : Element} (h : element.Named)
    (hallowed : (element.chars isShort).all isAllowed = true) :
    Event.ofDocument? (element.chars isShort) = some element.normalized.events := by
  obtain ⟨rest, hchars⟩ := exists_cons_chars isShort element
  obtain ⟨c, others, hname, hstarts⟩ := exists_cons_name (name_plain h)
  have hevents := ofChars?_chars isShort element h []
  rw [List.append_nil] at hevents
  rw [Event.ofDocument?, hallowed, if_pos rfl]
  have hmark : (element.chars isShort).head? ≠ some '\uFEFF' := by
    rw [hchars, List.head?_cons]
    intro heq
    exact absurd (Option.some.inj heq) (by decide)
  have hdeclaration : "<?xml ".toList.isPrefixOf? (element.chars isShort) = none := by
    cases hprefix : "<?xml ".toList.isPrefixOf? (element.chars isShort) with
    | none => rfl
    | some behind =>
      rw [List.isPrefixOf?_eq_some_iff_append_eq, hchars, hname] at hprefix
      have hsecond : '?' = c := (List.cons.inj (List.cons.inj hprefix).2).1
      exact absurd hsecond.symm (ne_of_startsName hstarts (by decide))
  simp only [if_neg hmark, hdeclaration, hevents, Event.ofChars?]
  simp

end Element

def Reading.add (reading : Reading) (child : Element) : Reading :=
  match reading.elements with
  | [] => ⟨[], some child⟩
  | parent :: others => ⟨parent.addChild child :: others, reading.root?⟩

section Readings

theorem areDistinct_of_nodup {α : Type} [BEq α] [LawfulBEq α] {items : List α} (h : items.Nodup) :
    areDistinct items = true := by
  induction items with
  | nil => rfl
  | cons item rest ih =>
    obtain ⟨hitem, hrest⟩ := List.nodup_cons.mp h
    simp [areDistinct, hitem, ih hrest]

theorem not_isDefaultBinding {name : String} (h : isPlainName name = true) (value : String) :
    TagAttribute.isDefaultBinding (plainAttribute (name, value)) = false := by
  have hne : name ≠ "xmlns" := by
    simp only [isPlainName, Bool.and_eq_true, bne_iff_ne] at h
    exact h.2
  have hbeq : (name == "xmlns") = false := beq_false_of_ne hne
  simp only [TagAttribute.isDefaultBinding, plainAttribute, hbeq, Bool.and_false]

theorem not_isBinding (a : String × String) : TagAttribute.isBinding (plainAttribute a) = false :=
  rfl

variable {attributes : List (String × String)}

theorem extend?_plain (h : ∀ a ∈ attributes, isPlainName a.1 = true) (bindings : Bindings) :
    bindings.extend? (attributes.map plainAttribute) = some bindings := by
  have hbound : ((attributes.map plainAttribute).filter fun a =>
      TagAttribute.isBinding a && a.2 != xmlSpace) = [] := by
    rw [List.filter_eq_nil_iff]
    intro a ha
    obtain ⟨plain, -, rfl⟩ := List.mem_map.mp ha
    simp [not_isBinding]
  have hdeclared : ((attributes.map plainAttribute).filter fun a =>
      TagAttribute.isBinding a || TagAttribute.isDefaultBinding a) = [] := by
    rw [List.filter_eq_nil_iff]
    intro a ha
    obtain ⟨⟨name, value⟩, hmem, rfl⟩ := List.mem_map.mp ha
    simp [not_isBinding, not_isDefaultBinding (h _ hmem)]
  simp only [Bindings.extend?, hbound, hdeclared]
  rfl

theorem attributes?_plain (h : ∀ a ∈ attributes, isPlainName a.1 = true)
    (hnodup : (attributes.map Prod.fst).Nodup) (bindings : Bindings) :
    bindings.attributes? (attributes.map plainAttribute) = some attributes := by
  have hleft : ((attributes.map plainAttribute).filter fun a =>
      !TagAttribute.isBinding a && !TagAttribute.isDefaultBinding a) =
      attributes.map plainAttribute := by
    rw [List.filter_eq_self]
    intro a ha
    obtain ⟨⟨name, value⟩, hmem, rfl⟩ := List.mem_map.mp ha
    simp [not_isBinding, not_isDefaultBinding (h _ hmem)]
  have hspaces : (attributes.map plainAttribute).mapM (TagAttribute.space? bindings) =
      some (attributes.map fun _ => none) := by
    clear h hnodup hleft
    induction attributes with
    | nil => rfl
    | cons a rest ih =>
      rw [List.map_cons, List.mapM_cons, ih]
      rfl
  have hdistinct : areDistinct ((attributes.map fun _ => (none : Option String)).zip
      ((attributes.map plainAttribute).map (·.1.name))) = true := by
    have hzip : ((attributes.map fun _ => (none : Option String)).zip
        ((attributes.map plainAttribute).map (·.1.name))) =
        (attributes.map Prod.fst).map fun name => ((none : Option String), name) := by
      rw [List.map_map, List.zip_map', List.map_map]
      rfl
    rw [hzip]
    exact areDistinct_of_nodup (hnodup.map fun a b heq => (Prod.mk.inj heq).2)
  have hlocal : (attributes.map plainAttribute).map (fun a => (a.1.name, a.2)) = attributes := by
    rw [List.map_map]
    exact List.map_id attributes
  simp only [Bindings.attributes?, hleft, hspaces, Option.bind_some, hdistinct, if_true]
  exact congrArg some hlocal

end Readings

namespace Reading

def IsOpen (reading : Reading) : Prop :=
  reading.bindings = [] ∧ (reading.elements = [] → reading.root? = none)

theorem next?_opening {reading : Reading} (hopen : reading.IsOpen) {name : String}
    {attributes : List (String × String)} (h : ∀ a ∈ attributes, isPlainName a.1 = true)
    (hnodup : (attributes.map Prod.fst).Nodup) :
    reading.next? (.opening ⟨"", name⟩ (attributes.map plainAttribute)) =
      some ⟨⟨⟨"", name⟩, attributes, [], [], none⟩ :: reading.elements, reading.root?⟩ := by
  obtain ⟨hbindings, hroot⟩ := hopen
  have hfirst : (reading.elements.isEmpty && reading.root?.isSome) = false := by
    cases helements : reading.elements with
    | nil => simp [hroot helements]
    | cons innermost outer => rfl
  have hadmits : Bindings.admitsElement [] ⟨"", name⟩ = true := rfl
  simp only [next?, opening?, hfirst, hbindings, extend?_plain h, Option.bind_some]
  rw [if_neg (by decide), if_pos hadmits, attributes?_plain h hnodup]
  rfl

theorem foldlM_textEvents (innermost : OpenElement) (outer : List OpenElement)
    (root? : Option Element) (htext : innermost.text? = none) (text : String) :
    (textEvents text).foldlM next? ⟨innermost :: outer, root?⟩ =
      some ⟨{ innermost with text? := if text = "" then none else some text } :: outer, root?⟩ := by
  unfold textEvents
  split
  · cases innermost
    simp only at htext
    rw [htext]
    rfl
  · have hadd : innermost.addText text = { innermost with text? := some text } := by
      simp [OpenElement.addText, htext]
    rw [← hadd]
    split <;> rfl

theorem next?_closing (innermost : OpenElement) (outer : List OpenElement) (root? : Option Element) :
    next? ⟨innermost :: outer, root?⟩ (.closing innermost.name) =
      some (add ⟨outer, root?⟩ innermost.close) := by
  simp only [next?, closing?, if_true]
  cases outer <;> rfl

end Reading

namespace Element

mutual

theorem foldlM_events : (element : Element) → element.Named → ∀ reading : Reading,
    reading.IsOpen →
    element.events.foldlM Reading.next? reading = some (reading.add element.settled)
  | ⟨name, attributes, children, text?⟩, h, reading, hopen => by
    obtain ⟨-, hattributes, hnodup, hchildren⟩ := h
    rw [events, List.foldlM_cons, Reading.next?_opening hopen hattributes hnodup]
    simp only [Option.bind_eq_bind, Option.bind_some]
    -- Between its tags the element is the innermost open one, whatever it stands in.
    rw [List.foldlM_append, foldlM_eventsAll children hchildren _ _ _ rfl]
    simp only [Option.bind_eq_bind, Option.bind_some, List.append_nil]
    rw [List.foldlM_append, Reading.foldlM_textEvents _ _ _ rfl]
    simp only [Option.bind_eq_bind, Option.bind_some, List.foldlM_cons, List.foldlM_nil]
    rw [Reading.next?_closing]
    have hclose : OpenElement.close ⟨⟨"", name⟩, attributes, [], (settledAll children).reverse,
        if text?.getD "" = "" then none else some (text?.getD "")⟩ =
        settled ⟨name, attributes, children, text?⟩ := by
      have hempty : (settledAll children).reverse.isEmpty = children.isEmpty := by
        cases children <;> simp [settledAll]
      have htext : (if text?.getD "" = "" then none else some (text?.getD "")) =
          text?.filter (· != "") := by
        cases text? with
        | none => rfl
        | some text => by_cases hnone : text = "" <;> simp [hnone, Option.filter]
      simp only [OpenElement.close, settled, hempty, htext, List.reverse_reverse]
    rw [hclose]
    rfl

theorem foldlM_eventsAll : (elements : List Element) → NamedAll elements →
    ∀ (innermost : OpenElement) (outer : List OpenElement) (root? : Option Element),
    innermost.bindings = [] →
    (eventsAll elements).foldlM Reading.next? ⟨innermost :: outer, root?⟩ =
      some ⟨{ innermost with children := (settledAll elements).reverse ++ innermost.children } ::
        outer, root?⟩
  | [], _, innermost, outer, root?, _ => rfl
  | element :: rest, h, innermost, outer, root?, hbindings => by
    have hopen : Reading.IsOpen ⟨innermost :: outer, root?⟩ := ⟨hbindings, by simp⟩
    rw [eventsAll, List.foldlM_append, foldlM_events element h.1 _ hopen]
    simp only [Option.bind_eq_bind, Option.bind_some, Reading.add]
    rw [foldlM_eventsAll rest h.2]
    · simp [OpenElement.addChild, settledAll]
    · exact hbindings

end

mutual

theorem named_normalized : (element : Element) → element.Named → element.normalized.Named
  | ⟨name, attributes, children, text?⟩, ⟨hname, hattributes, hnodup, hchildren⟩ => by
    refine ⟨hname, ?_, ?_, namedAll_normalizedAll children hchildren⟩
    · intro a ha
      obtain ⟨written, hwritten, rfl⟩ := List.mem_map.mp ha
      exact hattributes written hwritten
    · rw [List.map_map]
      exact hnodup

theorem namedAll_normalizedAll : (elements : List Element) → NamedAll elements →
    NamedAll (normalizedAll elements)
  | [], _ => trivial
  | element :: rest, h =>
    ⟨named_normalized element h.1, namedAll_normalizedAll rest h.2⟩

end

/-- What is written of an element is read back with the line ends of the reader, but for the texts
that leave no trace. -/
theorem read?_write_normalized {isShort : String → Bool} {element : Element} (h : element.Named)
    (hallowed : (element.write isShort).toList.all isAllowed = true) :
    read? (element.write isShort) = some element.normalized.settled := by
  rw [write, String.toList_ofList] at hallowed
  rw [read?, write, String.toList_ofList, ofDocument?_chars h hallowed, Option.bind_some, ofEvents?,
    foldlM_events _ (named_normalized element h) Reading.start ⟨rfl, fun _ => rfl⟩]
  rfl

theorem read?_eq_none {text : String} (h : text.toList.all isAllowed = false) :
    read? text = none := by
  rw [read?, Event.ofDocument?, h]
  rfl

mutual

theorem named_of_writable : (element : Element) → element.Writable → element.Named
  | ⟨_, _, children, _⟩, ⟨hname, hattributes, hnodup, _, hchildren⟩ =>
    ⟨hname, fun a ha => (hattributes a ha).1, hnodup, namedAll_of_writableAll children hchildren⟩

theorem namedAll_of_writableAll : (elements : List Element) → WritableAll elements →
    NamedAll elements
  | [], _ => trivial
  | element :: rest, h =>
    ⟨named_of_writable element h.1, namedAll_of_writableAll rest h.2⟩

end

mutual

theorem normalized_of_writable : (element : Element) → element.Writable →
    element.normalized = element
  | ⟨name, attributes, children, text?⟩, h => by
    obtain ⟨-, hattributes, -, htext, hchildren⟩ := h
    have hvalues : attributes.map normalAttribute = attributes :=
      (List.map_congr_left fun a ha => normalAttribute_eq_self (hattributes a ha).2).trans
        (List.map_id attributes)
    have hsame : text?.map normalText = text? := by
      cases text? with
      | none => rfl
      | some text => exact congrArg some (normalText_eq_self (isElementText_iff.mp htext).2)
    rw [normalized, hvalues, hsame, normalizedAll_of_writableAll children hchildren]

theorem normalizedAll_of_writableAll : (elements : List Element) → WritableAll elements →
    normalizedAll elements = elements
  | [], _ => rfl
  | element :: rest, h => by
    rw [normalizedAll, normalized_of_writable element h.1, normalizedAll_of_writableAll rest h.2]

end

theorem read?_write (isShort : String → Bool) {element : Element} (h : element.Writable) :
    read? (element.write isShort) = some element.settled := by
  have hallowed : (element.write isShort).toList.all isAllowed = true := by
    rw [write, String.toList_ofList, all_isAllowed_chars isShort element h]
  rw [read?_write_normalized (named_of_writable element h) hallowed,
    normalized_of_writable element h]

end Element

end RecordQuery.Markup
