import SceneExchange.Proofs.Tags

/-!
# Reading what is spelled out

Markup is spelled as start tags, texts and end tags. An element that is spelled so is read as a tree:
the tags in their order, each with the attributes as a reader takes them. A value that is taken for
nothing is all that can go wrong, and then the whole text is no document.

A spelling names everything that stands between the tags, so what is read of a text does not depend on
how the text is laid out.
-/

open List

namespace SceneExchange.Markup

open Text

mutual

/-- An element as it is spelled: one tag, which may have blanks before its end, or two tags with
what stands between them. -/
inductive Spelling where
  | leaf (head : Head) (gap : String)
  | node (head : Head) (inner : Inner)

/-- Texts and elements, one after the other, with a text at the end. -/
inductive Inner where
  | last (text : String)
  | more (text : String) (first : Spelling) (rest : Inner)

end

mutual

def Spelling.chars : Spelling → List Char
  | .leaf head gap => head.chars ++ (gap.toList ++ closing true)
  | .node head inner => head.chars ++ (closing false ++ (inner.chars ++ ('<' :: '/' :: (head.name.toList ++ ['>']))))

def Inner.chars : Inner → List Char
  | .last text => text.toList
  | .more text first rest => text.toList ++ (first.chars ++ rest.chars)

end

mutual

/-- Spellings that are read as they are meant, but for values that are taken for nothing. Their texts
are made of the given characters. -/
def Spelling.SoundIn (p : Char → Bool) : Spelling → Prop
  | .leaf head gap => head.Sound ∧ ∀ c ∈ gap.toList, isSpace c
  | .node head inner => head.Sound ∧ inner.SoundIn p

def Inner.SoundIn (p : Char → Bool) : Inner → Prop
  | .last text => ∀ c ∈ text.toList, p c
  | .more text first rest => (∀ c ∈ text.toList, p c) ∧ first.SoundIn p ∧ rest.SoundIn p

end

abbrev Spelling.Sound (s : Spelling) : Prop := s.SoundIn isProse

abbrev Inner.Sound (inner : Inner) : Prop := inner.SoundIn isProse

/-- Characters of texts that are taken whole: no mark of a tag or of a reference is among them, and
the mark that ends a section cannot be made of them. -/
structure Legible (p : Char → Bool) : Prop where
  chars : ∀ c, p c → isLegal c ∧ c ≠ '<' ∧ c ≠ '&'
  mark : p ']' = false ∨ p '>' = false
  newline : p '\n'

theorem legible_isProse : Legible isProse where
  chars c hc := by
    simp only [isProse, Bool.and_eq_true, bne_iff_ne] at hc
    exact ⟨hc.1.1.1, hc.1.1.2, hc.1.2⟩
  mark := .inl (by decide)
  newline := by decide

def textTrees (text : String) : List Tree := if text = "" then [] else [.text text]

mutual

/-- What an element is read as, if its start is the given place, and the place after it. -/
def Spelling.tree? (next : Nat) : Spelling → Option (Tree × Nat)
  | .leaf head _ => (head.tag? next).map fun tag => (.element tag [], next + 1)
  | .node head inner => (head.tag? next).bind fun tag =>
      (inner.trees? (next + 1)).map fun (children, next) => (.element tag children, next)

def Inner.trees? (next : Nat) : Inner → Option (List Tree × Nat)
  | .last text => some (textTrees text, next)
  | .more text first rest => (first.tree? next).bind fun (tree, next) =>
      (rest.trees? next).map fun (trees, next) => (textTrees text ++ tree :: trees, next)

end

mutual

def Spelling.steps : Spelling → Nat
  | .leaf _ _ => 1
  | .node _ inner => inner.steps + 2

def Inner.steps : Inner → Nat
  | .last text => (textTrees text).length
  | .more text first rest => (textTrees text).length + (first.steps + rest.steps)

end

@[simp] theorem after_nil (r : Reading) : after [] r = r := rfl

@[simp] theorem after_after (xs ys : List Event) (r : Reading) : after xs (after ys r) = after (xs ++ ys) r := by
  simp [after]

@[simp] theorem after_snd (xs : List Event) (r : Reading) : (after xs r).2 = r.2 := rfl

theorem eventsOf_append (ts us : List Tree) : Tree.eventsOf (ts ++ us) = Tree.eventsOf ts ++ Tree.eventsOf us := by
  induction ts with
  | nil => rfl
  | cons t ts ih => simp [Tree.eventsOf, ih]

variable {p : Char → Bool}

theorem takeText_legible (hp : Legible p) {text : List Char} (h : ∀ c ∈ text, p c) (rest : List Char) :
    takeText (text ++ '<' :: rest) = (text, '<' :: rest) := by
  induction text with
  | nil => rfl
  | cons c text ih =>
    obtain ⟨hc, hText⟩ := forall_mem_cons.mp h
    have hLegible := hp.chars c hc
    rw [cons_append, takeText.eq_def]
    split
    · simp_all
    · rename_i heq
      obtain ⟨rfl, heq⟩ := List.cons.inj heq
      have hEnd : '>' ∈ text := by
        cases text with
        | nil => simp at heq
        | cons d text => cases text <;> simp_all
      obtain hMark | hMark := hp.mark
      · exact absurd hc (by simp [hMark])
      · exact absurd (hText '>' hEnd) (by simp [hMark])
    · rename_i heq
      obtain ⟨rfl, rfl⟩ := List.cons.inj heq
      simp [hLegible, ih hText]

theorem readContent_text (hp : Legible p) {text : String} (h : ∀ c ∈ text.toList, p c) (fuel : Nat)
    (frames : List Frame) (next : Nat) (rest : List Char) :
    readContent (fuel + (textTrees text).length) frames next (text.toList ++ '<' :: rest) =
      after (Tree.eventsOf (textTrees text)) (readContent fuel frames next ('<' :: rest)) := by
  cases hList : text.toList with
  | nil =>
    obtain rfl : text = "" := String.toList_inj.mp hList
    simp [textTrees, Tree.eventsOf]
  | cons c cs =>
    have hText : text ≠ "" := by
      rintro rfl
      cases hList
    have hTake := takeText_legible hp h rest
    have hc := hp.chars c (h c (by simp [hList]))
    rw [hList, cons_append] at hTake
    rw [textTrees, if_neg hText, length_singleton, cons_append, readContent.eq_def]
    have hOf : String.ofList (c :: cs) = text := by rw [← hList, String.ofList_toList]
    split
    · simp_all
    · split
      · simp_all
      · simp_all
      · simp_all
      · simp_all [Tree.eventsOf, Tree.events]

theorem readContent_head {head : Head} (hHead : head.Sound) {gap : List Char} (hGap : ∀ c ∈ gap, isSpace c) (isEmpty : Bool)
    (fuel : Nat) {frames : List Frame} (hScope : ∀ frame ∈ frames, frame.scope = .empty) (next : Nat) (rest : List Char) :
    let r := readContent (fuel + 1) frames next (head.chars ++ (gap ++ (closing isEmpty ++ rest)))
    match head.tag? next with
    | none => r.2 ≠ none
    | some tag => r =
        if isEmpty then after [.start tag, .finish tag]
          (if frames.isEmpty then ([], none) else readContent fuel frames (next + 1) rest)
        else after [.start tag] (readContent fuel (⟨tag, head.name.toList, .empty⟩ :: frames) (next + 1) rest) := by
  have hFrame : (frames.head?.map (·.scope)).getD .empty = .empty := by
    cases frames with
    | nil => rfl
    | cons frame outer => exact hScope frame mem_cons_self
  have hChars : head.chars ++ (gap ++ (closing isEmpty ++ rest)) =
      '<' :: (head.name.toList ++ (head.attributes.flatMap Head.attributeChars ++ (gap ++ (closing isEmpty ++ rest)))) := by
    simp [Head.chars]
  rw [hChars, readContent.eq_def]
  obtain ⟨raws, hToken, hReads⟩ | ⟨⟨lapse, hToken⟩, hNone⟩ := hHead.scanToken hGap isEmpty rest
  · have hOpen := hHead.openTag hReads ('<' :: (head.name.toList ++
      (head.attributes.flatMap Head.attributeChars ++ (gap ++ (closing isEmpty ++ rest))))) next
    cases hTag : head.tag? next with
    | none =>
      rw [hTag] at hOpen
      obtain ⟨t, ht⟩ := hOpen
      simp [hToken, hFrame, ht, stopWith]
    | some tag =>
      rw [hTag] at hOpen
      obtain ⟨hOpen, rfl⟩ := hOpen
      simp [hToken, hFrame, hOpen]
  · rw [(Head.tag?_eq_none_iff next).mpr (.inr hNone)]
    simp [hToken, stopWith]

theorem scanToken_end {name : String} (h : isName name) (rest : List Char) :
    scanToken ('/' :: (name.toList ++ '>' :: rest)) = .ok (.endTag name.toList, rest) := by
  change scanEndTag (name.toList ++ '>' :: rest) = _
  obtain ⟨c, more, hList, hc, hMore⟩ := isName_iff.mp h
  have hName : ∀ d ∈ more, (isNameChar d || d == ':') = true := fun d hd => by simp [hMore d hd]
  have hEnd : isNameChar '>' = false := by decide
  have hSolid : isSpace '>' = false := by decide
  rw [hList, cons_append, scanEndTag]
  simp [hc, dropWhile_append_of_pos hName, takeWhile_append_of_pos hName, hEnd, hSolid]

theorem readContent_end {frame : Frame} {name : String} (hName : isName name) (hFrame : frame.written = name.toList)
    (fuel : Nat) (outer : List Frame) (next : Nat) (rest : List Char) :
    readContent (fuel + 1) (frame :: outer) next ('<' :: '/' :: (name.toList ++ '>' :: rest)) =
      after [.finish frame.tag] (if outer.isEmpty then ([], none) else readContent fuel outer next rest) := by
  rw [readContent.eq_def]
  simp [scanToken_end hName, hFrame]

theorem Spelling.exists_chars (s : Spelling) : ∃ cs, s.chars = '<' :: cs := by
  cases s <;> exact ⟨_, rfl⟩

theorem Spelling.SoundIn.exists_start {s : Spelling} (hs : s.SoundIn p) :
    ∃ c cs, s.chars = '<' :: c :: cs ∧ isNameStart c := by
  have hHead (head : Head) (hHead : head.Sound) (rest : List Char) :
      ∃ c cs, head.chars ++ rest = '<' :: c :: cs ∧ isNameStart c := by
    obtain ⟨c, cs, hList, hc, -⟩ := isName_iff.mp hHead.name
    exact ⟨c, cs ++ (head.attributes.flatMap Head.attributeChars ++ rest), by simp [Head.chars, hList], hc⟩
  cases s with
  | leaf head gap => exact hHead head hs.1 _
  | node head inner => exact hHead head hs.1 _

mutual

theorem readContent_spelling (hp : Legible p) (s : Spelling) (hs : s.SoundIn p) (fuel : Nat)
    {frames : List Frame} (hScope : ∀ frame ∈ frames, frame.scope = .empty) (next : Nat) (rest : List Char) :
    let r := readContent (fuel + s.steps) frames next (s.chars ++ rest)
    match s.tree? next with
    | none => r.2 ≠ none
    | some (tree, after') => r = after tree.events
        (if frames.isEmpty then ([], none) else readContent fuel frames after' rest) := by
  cases s with
  | leaf head gap =>
    have hRead := readContent_head hs.1 hs.2 true fuel hScope next rest
    rw [Spelling.tree?]
    cases hTag : head.tag? next with
    | none => simpa [hTag, Spelling.chars, Spelling.steps] using hRead
    | some tag => simpa [hTag, Spelling.chars, Spelling.steps, Tree.events, Tree.eventsOf] using hRead
  | node head inner =>
    have hRead := readContent_head hs.1 (forall_mem_nil _) false (fuel + 1 + inner.steps) hScope next
      (inner.chars ++ '<' :: '/' :: (head.name.toList ++ '>' :: rest))
    have hChars : (Spelling.node head inner).chars ++ rest = head.chars ++ ([] ++ (closing false ++
        (inner.chars ++ '<' :: '/' :: (head.name.toList ++ '>' :: rest)))) := by
      simp [Spelling.chars]
    have hSteps : fuel + (Spelling.node head inner).steps = fuel + 1 + inner.steps + 1 := by
      rw [Spelling.steps]
      omega
    rw [Spelling.tree?, hChars, hSteps]
    cases hTag : head.tag? next with
    | none => simpa [hTag] using hRead
    | some tag =>
      rw [hTag] at hRead
      dsimp only at hRead
      rw [if_neg Bool.false_ne_true] at hRead
      have hInside : ∀ frame ∈ (⟨tag, head.name.toList, .empty⟩ : Frame) :: frames, frame.scope = .empty := by
        simpa using hScope
      have hInner := readContent_inner hp inner hs.2 (fuel + 1) (cons_ne_nil _ _) hInside (next + 1)
        ('/' :: (head.name.toList ++ '>' :: rest))
      cases hTrees : inner.trees? (next + 1) with
      | none =>
        rw [hTrees] at hInner
        change (readContent _ _ _ _).2 ≠ none
        rw [hRead, after_snd]
        exact hInner
      | some x =>
        obtain ⟨trees, last⟩ := x
        rw [hTrees] at hInner
        change readContent _ _ _ _ = _
        rw [hRead, hInner, readContent_end hs.1.name rfl]
        simp [Tree.events]

theorem readContent_inner (hp : Legible p) (inner : Inner) (hInner : inner.SoundIn p) (fuel : Nat)
    {frames : List Frame} (hFrames : frames ≠ []) (hScope : ∀ frame ∈ frames, frame.scope = .empty) (next : Nat)
      (rest : List Char) :
    let r := readContent (fuel + inner.steps) frames next (inner.chars ++ '<' :: rest)
    match inner.trees? next with
    | none => r.2 ≠ none
    | some (trees, after') => r = after (Tree.eventsOf trees) (readContent fuel frames after' ('<' :: rest)) := by
  cases inner with
  | last text => exact readContent_text hp hInner fuel frames next rest
  | more text first others =>
    obtain ⟨hText, hFirst, hOthers⟩ := hInner
    obtain ⟨cs, hcs⟩ := first.exists_chars
    have hChars : (Inner.more text first others).chars ++ '<' :: rest =
        text.toList ++ (first.chars ++ (others.chars ++ '<' :: rest)) := by
      simp [Inner.chars]
    have hSteps : fuel + (Inner.more text first others).steps =
        fuel + others.steps + first.steps + (textTrees text).length := by
      rw [Inner.steps]
      omega
    have hRead := readContent_text hp hText (fuel + others.steps + first.steps) frames next
      (cs ++ (others.chars ++ '<' :: rest))
    rw [← cons_append, ← hcs] at hRead
    rw [Inner.trees?, hChars, hSteps, hRead]
    have hElement := readContent_spelling hp first hFirst (fuel + others.steps) hScope next (others.chars ++ '<' :: rest)
    cases hTree : first.tree? next with
    | none =>
      rw [hTree] at hElement
      exact hElement
    | some x =>
      obtain ⟨tree, next₁⟩ := x
      rw [hTree] at hElement
      have hRest := readContent_inner hp others hOthers fuel hFrames hScope next₁ rest
      change readContent _ _ _ _ = _ at hElement
      rw [if_neg (by simpa using hFrames)] at hElement
      cases hTrees : others.trees? next₁ with
      | none =>
        rw [hTrees] at hRest
        simpa [hElement, hTrees] using hRest
      | some y =>
        obtain ⟨trees, next₂⟩ := y
        rw [hTrees] at hRest
        simp only at hRest
        simp [hElement, hTrees, hRest, Tree.eventsOf, eventsOf_append]

end

/-! ## Documents -/

theorem unifyLines_append_of_notMem {cs : List Char} (h : '\r' ∉ cs) (rest : List Char) :
    unifyLines (cs ++ rest) = cs ++ unifyLines rest := by
  induction cs with
  | nil => rfl
  | cons c cs ih =>
    obtain ⟨hc, hcs⟩ := not_or.mp (mt mem_cons.mpr h)
    rw [cons_append, unifyLines.eq_def]
    split <;> simp_all

theorem unifyLines_append_cons (cs : List Char) {d : Char} (hReturn : d ≠ '\r') (hNewline : d ≠ '\n') (rest : List Char) :
    unifyLines (cs ++ d :: rest) = unifyLines cs ++ d :: unifyLines rest := by
  have hRest := unifyLines_append_of_notMem (by simpa using hReturn.symm : '\r' ∉ [d]) rest
  fun_induction unifyLines cs with
  | case1 => exact hRest
  | case2 cs ih => simpa [unifyLines] using ih
  | case3 cs hOther ih =>
    have hNext : ∀ more, cs ++ d :: rest = '\n' :: more → False := by
      intro more hSame
      cases cs with
      | nil => exact hNewline (List.cons.inj hSame).1
      | cons c cs => exact hOther cs (by rw [(List.cons.inj hSame).1])
    rw [cons_append, unifyLines.eq_3 _ hNext, ih, cons_append]
  | case4 c cs h₁ h₂ ih =>
    rw [cons_append, unifyLines.eq_def]
    split <;> simp_all

theorem mem_of_mem_unifyLines {cs : List Char} {c : Char} (h : c ∈ unifyLines cs) : c ∈ cs ∨ c = '\n' := by
  fun_induction unifyLines cs <;> simp_all <;> grind

def unified (s : String) : String := String.ofList (unifyLines s.toList)

@[simp] theorem toList_unified (s : String) : (unified s).toList = unifyLines s.toList := String.toList_ofList

theorem forall_mem_unified {p : Char → Prop} {s : String} (h : ∀ c ∈ s.toList, p c) (hNewline : p '\n') :
    ∀ c ∈ (unified s).toList, p c := by
  intro c hc
  obtain hc | rfl := mem_of_mem_unifyLines (toList_unified s ▸ hc)
  · exact h c hc
  · exact hNewline

def Head.unified (h : Head) : Head := ⟨h.name, h.attributes.map fun a => (a.1, Markup.unified a.2)⟩

mutual

/-- A spelling with every line end in its texts and values written as one newline. -/
def Spelling.unified : Spelling → Spelling
  | .leaf head gap => .leaf head.unified (Markup.unified gap)
  | .node head inner => .node head.unified inner.unified

def Inner.unified : Inner → Inner
  | .last text => .last (Markup.unified text)
  | .more text first rest => .more (Markup.unified text) first.unified rest.unified

end

theorem Head.Sound.unified {h : Head} (hSound : h.Sound) : h.unified.Sound where
  name := hSound.name
  keys := by
    rintro _ hb
    obtain ⟨a, ha, rfl⟩ := mem_map.mp hb
    exact hSound.keys a ha
  values := by
    rintro _ hb
    obtain ⟨a, ha, rfl⟩ := mem_map.mp hb
    intro hQuote
    obtain hQuote | hQuote := mem_of_mem_unifyLines (toList_unified a.2 ▸ hQuote)
    · exact hSound.values a ha hQuote
    · revert hQuote
      decide

mutual

theorem Spelling.SoundIn.unified (hp : p '\n') {s : Spelling} (hs : s.SoundIn p) : s.unified.SoundIn p := by
  cases s with
  | leaf head gap => exact ⟨hs.1.unified, forall_mem_unified hs.2 (by decide)⟩
  | node head inner => exact ⟨hs.1.unified, Inner.SoundIn.unified hp hs.2⟩

theorem Inner.SoundIn.unified (hp : p '\n') {inner : Inner} (h : inner.SoundIn p) : inner.unified.SoundIn p := by
  cases inner with
  | last text => exact forall_mem_unified h hp
  | more text first rest =>
    exact ⟨forall_mem_unified h.1 hp, Spelling.SoundIn.unified hp h.2.1, Inner.SoundIn.unified hp h.2.2⟩

end

theorem Head.Sound.unifyLines_chars {h : Head} (hSound : h.Sound) (rest : List Char) :
    unifyLines (h.chars ++ rest) = h.unified.chars ++ unifyLines rest := by
  have hName : '\r' ∉ '<' :: h.name.toList := by
    simpa using notMem_of_isName hSound.name (by decide)
  have hAttributes (as : List (String × String)) (hKeys : ∀ a ∈ as, isName a.1) :
      unifyLines (as.flatMap Head.attributeChars ++ rest) =
        (as.map fun a => (a.1, Markup.unified a.2)).flatMap Head.attributeChars ++ unifyLines rest := by
    induction as with
    | nil => rfl
    | cons a as ih =>
      obtain ⟨hKey, hKeys⟩ := forall_mem_cons.mp hKeys
      have hFixed : '\r' ∉ ' ' :: (a.1.toList ++ ['=', doubleQuote]) := by
        simpa [doubleQuote] using notMem_of_isName hKey (by decide)
      calc unifyLines ((a :: as).flatMap Head.attributeChars ++ rest)
          = unifyLines ((' ' :: (a.1.toList ++ ['=', doubleQuote])) ++
              (a.2.toList ++ doubleQuote :: (as.flatMap Head.attributeChars ++ rest))) := by
            simp [Head.attributeChars]
        _ = _ := by
            rw [unifyLines_append_of_notMem hFixed, unifyLines_append_cons _ (by decide) (by decide), ih hKeys]
            simp [Head.attributeChars]
  calc unifyLines (h.chars ++ rest)
      = unifyLines (('<' :: h.name.toList) ++ (h.attributes.flatMap Head.attributeChars ++ rest)) := by
        simp [Head.chars]
    _ = _ := by
        rw [unifyLines_append_of_notMem hName, hAttributes h.attributes fun a ha => (hSound.keys a ha).1]
        simp [Head.chars, Head.unified]

mutual

theorem Spelling.SoundIn.unifyLines_chars {s : Spelling} (hs : s.SoundIn p) (rest : List Char) :
    unifyLines (s.chars ++ rest) = s.unified.chars ++ unifyLines rest := by
  cases s with
  | leaf head gap =>
    have hEnd := unifyLines_append_of_notMem (by decide : '\r' ∉ ['>']) rest
    have hGap := unifyLines_append_cons gap.toList (d := '/') (by decide) (by decide) ('>' :: rest)
    rw [Spelling.chars, append_assoc, hs.1.unifyLines_chars]
    simp_all [Spelling.unified, Spelling.chars, closing]
  | node head inner =>
    have hName : '\r' ∉ '/' :: (head.name.toList ++ ['>']) := by simpa using notMem_of_isName hs.1.name (by decide)
    have hEnd := unifyLines_append_of_notMem hName rest
    have hInner := Inner.SoundIn.unifyLines_chars hs.2 ('/' :: (head.name.toList ++ '>' :: rest))
    have hOpen := unifyLines_append_of_notMem (by decide : '\r' ∉ ['>'])
      (inner.chars ++ '<' :: '/' :: (head.name.toList ++ '>' :: rest))
    rw [Spelling.chars, append_assoc, hs.1.unifyLines_chars]
    simp_all [Spelling.unified, Spelling.chars, closing, Head.unified]

theorem Inner.SoundIn.unifyLines_chars {inner : Inner} (h : inner.SoundIn p) (rest : List Char) :
    unifyLines (inner.chars ++ '<' :: rest) = inner.unified.chars ++ '<' :: unifyLines rest := by
  cases inner with
  | last text => simpa [Inner.chars, Inner.unified] using unifyLines_append_cons text.toList (by decide) (by decide) rest
  | more text first others =>
    obtain ⟨cs, hcs⟩ := first.exists_chars
    have hFirst := Spelling.SoundIn.unifyLines_chars h.2.1 (others.chars ++ '<' :: rest)
    have hText := unifyLines_append_cons text.toList (d := '<') (by decide) (by decide) (cs ++ (others.chars ++ '<' :: rest))
    have hOpen := unifyLines_append_of_notMem (by decide : '\r' ∉ ['<']) (cs ++ (others.chars ++ '<' :: rest))
    have hOthers := Inner.SoundIn.unifyLines_chars h.2.2 rest
    simp_all [Inner.chars, Inner.unified]

end

mutual

theorem Spelling.steps_le (s : Spelling) : s.steps ≤ s.chars.length := by
  cases s with
  | leaf head gap =>
    simp only [Spelling.steps, Spelling.chars, Head.chars, length_append, length_cons]
    omega
  | node head inner =>
    have hInner := Inner.steps_le inner
    simp only [Spelling.steps, Spelling.chars, Head.chars, length_append, length_cons]
    omega

theorem Inner.steps_le (inner : Inner) : inner.steps ≤ inner.chars.length := by
  have hText (text : String) : (textTrees text).length ≤ text.toList.length := by
    unfold textTrees
    split
    · simp
    · rename_i hSome
      have hSome : text.toList ≠ [] := fun hNil => hSome (String.toList_inj.mp hNil)
      exact length_pos_iff.mpr hSome
  cases inner with
  | last text => exact hText text
  | more text first rest =>
    have hFirst := Spelling.steps_le first
    have hRest := Inner.steps_le rest
    have := hText text
    simp only [Inner.steps, Inner.chars, length_append]
    omega

end

theorem skipProlog_blanks {lead : List Char} (hLead : ∀ c ∈ lead, isSpace c) (fuel : Nat) (first : Bool) {c : Char}
    (hc : isNameStart c) (rest : List Char) :
    skipProlog (fuel + lead.length + 1) first false (lead ++ '<' :: c :: rest) = .ok ('<' :: c :: rest) := by
  induction lead generalizing first with
  | nil =>
    have hOther : c ≠ '?' ∧ c ≠ '!' := by
      refine ⟨?_, ?_⟩ <;> rintro rfl <;> revert hc <;> decide
    rw [nil_append, skipProlog.eq_def]
    simp only
    split <;> simp_all
  | cons d lead ih =>
    obtain ⟨hd, hLead⟩ := forall_mem_cons.mp hLead
    have hOther : d ≠ '<' := by
      rintro rfl
      revert hd
      decide
    rw [cons_append, length_cons, show fuel + (lead.length + 1) + 1 = fuel + lead.length + 1 + 1 by omega,
      skipProlog.eq_def]
    simp [hd, ih hLead]

theorem read_legible (hp : Legible p) {s : Spelling} (hs : s.SoundIn p) {lead : List Char}
    (hLead : ∀ c ∈ lead, isSpace c) {text : String} {rest : List Char} (hText : text.toList = lead ++ (s.chars ++ rest)) :
    match s.unified.tree? 0 with
    | none => (read text).2 ≠ none
    | some (tree, _) => read text = (tree.events, none) := by
  obtain ⟨ds, hStart⟩ := s.exists_chars
  obtain ⟨c, cs, hRoot, hc⟩ := (hs.unified hp.newline).exists_start
  let root := s.unified.chars ++ unifyLines rest
  have hLines : unifyLines text.toList = unifyLines lead ++ root := by
    have hElement := hs.unifyLines_chars rest
    have hOpen := unifyLines_append_of_notMem (by decide : '\r' ∉ ['<']) (ds ++ rest)
    rw [hText, hStart, cons_append, unifyLines_append_cons lead (by decide) (by decide)]
    simp_all [root]
  have hBlank : ∀ c ∈ unifyLines lead, isSpace c := by
    intro c hc
    obtain hc | rfl := mem_of_mem_unifyLines hc
    · exact hLead c hc
    · decide
  have hProlog : skipProlog ((unifyLines text.toList).length + 1) true false (unifyLines text.toList) = .ok root := by
    have hSkip := skipProlog_blanks hBlank root.length true hc (cs ++ unifyLines rest)
    have hSplit : root = '<' :: c :: (cs ++ unifyLines rest) := by simp [root, hRoot]
    rw [hLines, length_append, Nat.add_comm (unifyLines lead).length, hSplit]
    rw [hSplit] at hSkip
    exact hSkip
  have hFuel : ∃ fuel, root.length + 1 = fuel + s.unified.steps := by
    have hSteps := s.unified.steps_le
    exact ⟨root.length + 1 - s.unified.steps, by simp only [root, length_append]; omega⟩
  obtain ⟨fuel, hFuel⟩ := hFuel
  have hRead := readContent_spelling hp s.unified (hs.unified hp.newline) fuel (forall_mem_nil _) 0 (unifyLines rest)
  rw [read, hProlog]
  simp only
  rw [hFuel]
  cases hTree : s.unified.tree? 0 with
  | none =>
    rw [hTree] at hRead
    simpa using hRead
  | some x =>
    rw [hTree] at hRead
    simp only at hRead
    simp [root, hRead, after]

end SceneExchange.Markup
