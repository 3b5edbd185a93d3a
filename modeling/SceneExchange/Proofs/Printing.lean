import SceneExchange.Proofs.Layout

/-!
# Printing elements and reading them back

Printing keeps the lead in a variable that the printing of an element changes and puts back. What is
printed is the text of the element, and reading the text gives the element again: its names, its
attributes as they are displayed, and inside either its text or its elements, but for the blanks that
were put around them.
-/

open List

namespace SceneExchange.Markup

open Markup.Tree Content Markup.Inner

namespace Element

mutual

/-- Prints an element with the lead that is kept aside; the first one starts without a lead. -/
def printed (first : Bool) : Element → StateM String String
  | .mk name attributes children => do
    let before ← get
    set (if first then "" else before ++ "\t")
    let start := (← get) ++ "<" ++ name ++ attributeText attributes
    if first then set "\n"
    let inside ← printedContents children
    let lead ← get
    set before
    pure (if children.isEmpty then start ++ "/>"
      else start ++ ">" ++ inside ++ (if isInline children then "" else lead) ++ "</" ++ name ++ ">")

def printedContents : List Content → StateM String String
  | [] => pure ""
  | .element e :: rest => do
    let text ← printed false e
    pure (text ++ (← printedContents rest))
  | .datum d :: rest => do pure (d.display ++ (← printedContents rest))

end

mutual

theorem run_printed (first : Bool) (e : Element) (lead : String) :
    (printed first e).run lead = (if first then e.document else e.textUnder lead, lead) := by
  obtain ⟨name, attributes, children⟩ := e
  have hContents := run_printedContents children (if first then "\n" else lead ++ "\t")
  have hRun : (printed first (.mk name attributes children)).run lead =
      (if children.isEmpty then (if first then "" else lead ++ "\t") ++ "<" ++ name ++ attributeText attributes ++ "/>"
        else (if first then "" else lead ++ "\t") ++ "<" ++ name ++ attributeText attributes ++ ">" ++
          ((printedContents children).run (if first then "\n" else lead ++ "\t")).1 ++
          (if isInline children then "" else ((printedContents children).run (if first then "\n" else lead ++ "\t")).2) ++
            "</" ++ name ++ ">", lead) := by
    cases first <;> rfl
  rw [hRun, hContents]
  cases first <;> cases children <;> simp [document, textUnder, write]

theorem run_printedContents (cs : List Content) (lead : String) :
    (printedContents cs).run lead = (writeContents (lead ++ "\t") cs, lead) := by
  match cs with
  | [] => rfl
  | .element e :: rest =>
    have hFirst := run_printed false e lead
    have hRest := run_printedContents rest lead
    have hRun : (printedContents (.element e :: rest)).run lead =
        (((printed false e).run lead).1 ++ ((printedContents rest).run ((printed false e).run lead).2).1,
          ((printedContents rest).run ((printed false e).run lead).2).2) := rfl
    rw [hRun, hFirst, hRest]
    rfl
  | .datum d :: rest =>
    have hRest := run_printedContents rest lead
    have hRun : (printedContents (.datum d :: rest)).run lead =
        (d.display ++ ((printedContents rest).run lead).1, ((printedContents rest).run lead).2) := rfl
    rw [hRun, hRest]
    rfl

end

/-! ## What is said by an element and by a tree -/

mutual

/-- An element with everything in it as it is displayed. -/
def displayed : Element → Element
  | .mk name attributes children =>
    .mk name (attributes.map fun a => (a.1, .text a.2.display)) (displayedContents children)

def displayedContents : List Content → List Content
  | [] => []
  | .element e :: rest => .element e.displayed :: displayedContents rest
  | .datum d :: rest => (if d.display = "" then [] else [.datum (.text d.display)]) ++ displayedContents rest

end

end Element

namespace Content

def isElement : Content → Bool
  | .element _ => true
  | .datum _ => false

def isBlank : Content → Bool
  | .datum (.text s) => s.toList.all isSpace
  | _ => false

/-- Contents without the blanks between elements. -/
def trimmed (cs : List Content) : List Content := if cs.any isElement then cs.filter (!·.isBlank) else cs

end Content

mutual

def Tree.content : Tree → Content
  | .text s => .datum (.text s)
  | .element tag ts =>
    .element (.mk tag.name (tag.attributes.map fun a => (a.1, .text a.2)) (trimmed (contents ts)))

def Tree.contents : List Tree → List Content
  | [] => []
  | t :: rest => t.content :: contents rest

end

/-! ## Regular elements -/

/-- Characters that stand for themselves in values and in texts. -/
def isLiteral (c : Char) : Bool :=
  isLegal c && 32 ≤ c.toNat && c != '<' && c != '>' && c != '&' && c != Text.doubleQuote

/-- Characters between tags. -/
def isInner (c : Char) : Bool := isLegal c && c != '<' && c != '&' && c != '>'

/-- A start tag with names of one part, each attribute once, and literal values. -/
structure Head.Regular (h : Head) : Prop where
  name : isName h.name
  keys : ∀ a ∈ h.attributes, isName a.1 ∧ a.1.toList ≠ namespaceWord
  distinct : h.Distinct
  values : ∀ a ∈ h.attributes, ∀ c ∈ a.2.toList, isLiteral c

/-- An element that holds one literal text or elements that are such. -/
inductive Element.Regular : Element → Prop
  | text {name : String} {attributes : List (String × Datum)} {text : String}
      (head : (Head.mk name (shown attributes)).Regular) (chars : ∀ c ∈ text.toList, isLiteral c) :
      Regular (.mk name attributes [.datum (.text text)])
  | nest {name : String} {attributes : List (String × Datum)} {es : List Element}
      (head : (Head.mk name (shown attributes)).Regular) (elements : ∀ e ∈ es, Regular e) :
      Regular (.mk name attributes (es.map .element))

theorem legible_isInner : Legible isInner where
  chars c hc := by
    simp only [isInner, Bool.and_eq_true, bne_iff_ne] at hc
    exact ⟨hc.1.1.1, hc.1.1.2, hc.1.2⟩
  mark := .inr (by decide)
  newline := by decide

theorem isInner_of_isSpace {c : Char} (h : isSpace c) : isInner c := by
  simp only [isSpace, Bool.or_eq_true, beq_iff_eq] at h
  obtain ((rfl | rfl) | rfl) | rfl := h <;> decide

theorem isInner_of_isLiteral {c : Char} (h : isLiteral c) : isInner c := by
  simp_all [isLiteral, isInner]

theorem isPlain_of_isLiteral {c : Char} (h : isLiteral c) : isPlain c = true ∨ c = ' ' := by
  by_cases hSpace : isSpace c
  · right
    simp only [isSpace, Bool.or_eq_true, beq_iff_eq] at hSpace
    obtain ((rfl | rfl) | rfl) | rfl := hSpace
    · rfl
    all_goals revert h; decide
  · left
    simp_all [isLiteral, isPlain]

theorem unified_of_literal {v : String} (h : ∀ c ∈ v.toList, isLiteral c) : unified v = v :=
  unified_of_notMem fun hReturn => absurd (h _ hReturn) (by decide)

namespace Head.Regular

variable {head : Head}

theorem sound (h : head.Regular) : head.Sound where
  name := h.name
  keys := h.keys
  values a ha hQuote := absurd (h.values a ha _ hQuote) (by decide)

theorem tag? (h : head.Regular) (place : Nat) : head.unified.tag? place = some ⟨place, head.name, head.attributes⟩ :=
  tag?_of_taken h.distinct (fun a ha => taken_of_plain fun c hc => isPlain_of_isLiteral (h.values a ha c hc)) place

end Head.Regular

namespace Element

/-- A text spells an element after a lead, and what is read of it says what the element says. -/
def Spelled (lead : String) (e : Element) (text : String) : Prop :=
  ∃ s : Spelling, text.toList = lead.toList ++ s.chars ∧ s.SoundIn isInner ∧
    ∀ n, ∃ t n', s.unified.tree? n = some (t, n') ∧ t.content = .element e.displayed

theorem displayedContents_map (es : List Element) :
    displayedContents (es.map .element) = es.map fun e => .element e.displayed := by
  induction es with
  | nil => rfl
  | cons e es ih => rw [map_cons, displayedContents, ih, map_cons]

theorem displayed_shown (attributes : List (String × Datum)) :
    ((shown attributes).map fun a => (a.1, Datum.text a.2)) = attributes.map fun a => (a.1, .text a.2.display) := by
  rw [shown, map_map]
  rfl

theorem contents_append (ts us : List Tree) : contents (ts ++ us) = contents ts ++ contents us := by
  induction ts with
  | nil => rfl
  | cons t ts ih => rw [cons_append, contents, ih, contents, cons_append]

theorem filter_textTrees {blank : String} (h : ∀ c ∈ blank.toList, isSpace c) :
    (contents (textTrees (unified blank))).filter (!·.isBlank) = [] := by
  unfold textTrees
  split
  · rfl
  · simpa [contents, content, isBlank] using forall_mem_unified h (by decide)

theorem exists_items {es : List Element} {lead : String} (hLead : ∀ c ∈ lead.toList, isSpace c)
    (h : ∀ e ∈ es, Spelled lead e (write lead lead e)) :
    ∃ items : List (String × Spelling),
      (writeContents lead (es.map .element)).toList = items.flatMap (fun x => x.1.toList ++ x.2.chars) ∧
      (∀ x ∈ items, (∀ c ∈ x.1.toList, isInner c) ∧ x.2.SoundIn isInner) ∧ items.length = es.length ∧
      ∀ tail : String, (∀ c ∈ tail.toList, isSpace c) → ∀ n, ∃ ts n',
        (ofList items tail).unified.trees? n = some (ts, n') ∧
        (contents ts).filter (!·.isBlank) = es.map fun e => .element e.displayed := by
  induction es with
  | nil => exact ⟨[], rfl, forall_mem_nil _, rfl, fun tail hTail n => ⟨_, n, rfl, filter_textTrees hTail⟩⟩
  | cons e es ih =>
    obtain ⟨⟨s, hText, hSound, hTree⟩, hRest⟩ := forall_mem_cons.mp h
    obtain ⟨items, hTexts, hSounds, hLength, hTrees⟩ := ih hRest
    refine ⟨(lead, s) :: items, ?_, ?_, congrArg (· + 1) hLength, fun tail hTail n => ?_⟩
    · rw [map_cons, writeContents, String.toList_append, hText, hTexts, flatMap_cons]
    · exact forall_mem_cons.mpr ⟨⟨fun c hc => isInner_of_isSpace (hLead c hc), hSound⟩, hSounds⟩
    · obtain ⟨t, next, ht, hContent⟩ := hTree n
      obtain ⟨ts, after, hts, hContents⟩ := hTrees tail hTail next
      refine ⟨textTrees (unified lead) ++ t :: ts, after, ?_, ?_⟩
      · rw [trees?_ofList_cons, ht, Option.bind_some, hts, Option.map_some]
      · rw [contents_append, filter_append, filter_textTrees hLead, contents, hContent,
          nil_append, filter_cons_of_pos rfl, hContents, map_cons]

theorem trimmed_eq {cs : List Content} {es : List Element} (hes : es ≠ [])
    (h : cs.filter (!·.isBlank) = es.map fun e => .element e.displayed) :
    trimmed cs = es.map fun e => .element e.displayed := by
  obtain ⟨e, es, rfl⟩ := exists_cons_of_ne_nil hes
  have hMem : element e.displayed ∈ cs.filter (!·.isBlank) := by
    rw [h]
    exact mem_cons_self
  have hMem := (mem_filter.mp hMem).1
  rw [trimmed, if_pos (any_eq_true.mpr ⟨_, hMem, rfl⟩), h]

theorem isInline_map (es : List Element) : isInline (es.map .element) = false := by
  obtain _ | ⟨e, es⟩ := es <;> rfl

/-- The text of a regular element is read as what the element says. -/
theorem Regular.spelled {e : Element} (h : e.Regular) (lead : String) {close : String}
    (hClose : ∀ c ∈ close.toList, isSpace c) : Spelled lead e (e.write lead close) := by
  induction h generalizing lead close with
  | @text name attributes text head chars =>
    refine ⟨.node ⟨name, shown attributes⟩ (.last text), ?_, ⟨head.sound, fun c hc => isInner_of_isLiteral (chars c hc)⟩,
      fun n => ⟨.element ⟨n, name, shown attributes⟩ (textTrees text), n + 1, ?_, ?_⟩⟩
    · simp [write, writeContents, isInline, toList_attributeText, Spelling.chars, Inner.chars, Head.chars, closing]
    · rw [Spelling.unified, Spelling.tree?, head.tag? n, Inner.unified, unified_of_literal chars]
      rfl
    · rw [content, displayed, displayed_shown, displayedContents, displayedContents, textTrees]
      by_cases hEmpty : text = "" <;> simp [hEmpty, contents, content, trimmed, isElement]
  | @nest name attributes es head elements ih =>
    have hInside : ∀ c ∈ (close ++ "\t").toList, isSpace c := by
      intro c hc
      obtain hc | hc := mem_append.mp (String.toList_append ▸ hc)
      · exact hClose c hc
      · obtain rfl := mem_singleton.mp hc
        decide
    obtain ⟨items, hTexts, hSounds, hLength, hTrees⟩ := exists_items hInside fun e he => ih e he (close ++ "\t") hInside
    by_cases hes : es = []
    · subst hes
      refine ⟨.leaf ⟨name, shown attributes⟩ "", ?_, ⟨head.sound, forall_mem_nil _⟩,
        fun n => ⟨.element ⟨n, name, shown attributes⟩ [], n + 1, ?_, ?_⟩⟩
      · simp [write, toList_attributeText, Spelling.chars, Head.chars, closing]
      · rw [Spelling.unified, Spelling.tree?, head.tag? n]
        rfl
      · rw [content, displayed, displayed_shown]
        rfl
    · refine ⟨.node ⟨name, shown attributes⟩ (.ofList items close), ?_,
        ⟨head.sound, sound_ofList hSounds fun c hc => isInner_of_isSpace (hClose c hc)⟩, fun n => ?_⟩
      · rw [Spelling.chars, chars_ofList, ← hTexts]
        obtain ⟨e, es, rfl⟩ := exists_cons_of_ne_nil hes
        have hInline := isInline_map (e :: es)
        rw [map_cons] at hInline
        simp [write, hInline, toList_attributeText, Head.chars, closing]
      · obtain ⟨ts, after, hts, hContents⟩ := hTrees close hClose (n + 1)
        refine ⟨.element ⟨n, name, shown attributes⟩ ts, after, ?_, ?_⟩
        · rw [Spelling.unified, Spelling.tree?, head.tag? n, Option.bind_some, hts]
          rfl
        · rw [content, displayed, displayed_shown, displayedContents_map, trimmed_eq hes hContents]

/-- Printing a regular element first gives its document and leaves the lead as it was, and the document
is read as a tree that says what the element says. -/
theorem document_returns {e : Element} (h : e.Regular) (lead : String) :
    (printed true e).run lead = (e.document, lead) ∧
    ∃ t : Tree, read e.document = (t.events, none) ∧ t.content = .element e.displayed := by
  refine ⟨run_printed true e lead, ?_⟩
  obtain ⟨s, hText, hSound, hTree⟩ := h.spelled "" (by decide : ∀ c ∈ "\n".toList, isSpace c)
  obtain ⟨t, after, ht, hContent⟩ := hTree 0
  have hRead := read_legible legible_isInner hSound (forall_mem_nil _)
    (by rw [append_nil]; exact hText : e.document.toList = [] ++ (s.chars ++ []))
  rw [ht] at hRead
  exact ⟨t, hRead, hContent⟩

def letter : Element :=
  .mk "Letter" [("to", .text "Ada")] [.element (.mk "Body" [] [.datum (.text "see [[1]]")]), .element (.leaf "Seal" [])]

theorem document_returns_letter : (printed true letter).run "\t" =
      ("<Letter to=\"Ada\">\n\t<Body>see [[1]]</Body>\n\t<Seal/>\n</Letter>", "\t") ∧
    ∃ t : Tree, read letter.document = (t.events, none) ∧ t.content = .element letter.displayed := by
  have hBody : Regular (.mk "Body" [] [.datum (.text "see [[1]]")]) :=
    .text ⟨by decide, by decide, by decide, by decide⟩ (by decide)
  have hSeal : Regular (.mk "Seal" [] ([].map .element)) :=
    .nest ⟨by decide, by decide, by decide, by decide⟩ (forall_mem_nil _)
  have hLetter : Regular letter := by
    refine @Regular.nest "Letter" [("to", .text "Ada")] [_, _] ⟨by decide, by decide, by decide, by decide⟩ ?_
    simpa using ⟨hBody, hSeal⟩
  exact document_returns hLetter "\t"

/-- A text of one character that is no control character and no mark of markup, and yet no character
of markup, and a name of two parts the first of which is bound to nothing: neither document can be
read. -/
theorem document_unreadable :
    (∀ c ∈ "\uffff".toList, 32 ≤ c.toNat ∧ ¬(127 ≤ c.toNat ∧ c.toNat < 160) ∧ c.toNat ∉ [34, 38, 39, 60, 62]) ∧
    (read (Element.mk "a" [] [.datum (.text "\uffff")]).document).2 ≠ none ∧
    (read (Element.leaf "a:b" []).document).2 ≠ none := by
  decide +kernel

end Element

end SceneExchange.Markup
