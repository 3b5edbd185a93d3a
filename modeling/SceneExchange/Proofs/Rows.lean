import SceneExchange.Proofs.Decimals
import SceneExchange.Proofs.Layout

/-!
# Elements in rows

A text may be made of rows: blanks, an element and the end of a line. An element around such a text is
read with one child for each row. Where an attribute of some element stands in it twice, the whole is
read as nothing.
-/

open List Option

namespace SceneExchange.Markup

open Markup.Inner Number Import

open Import (elements Mark marks marksOf)

/-! ## Values that are read as they are -/

/-- A character that may stand in a value and is read as itself. -/
def isOrdinary (c : Char) : Bool := (isPlain c || c == ' ') && c != Text.doubleQuote

def Clean (text : String) : Prop := ∀ c ∈ text.toList, isOrdinary c

instance : DecidablePred Clean := fun text => inferInstanceAs (Decidable (∀ c ∈ text.toList, isOrdinary c))

theorem taken_of_clean {v : String} (h : Clean v) : taken v = some v := by
  refine taken_of_plain fun c hc => ?_
  have := h c hc
  simp only [isOrdinary, Bool.and_eq_true, Bool.or_eq_true, beq_iff_eq] at this
  exact this.1

theorem notMem_of_clean {v : String} (h : Clean v) : Text.doubleQuote ∉ v.toList := by
  intro hMem
  have := h _ hMem
  revert this
  decide

theorem clean_append {v v' : String} (h : Clean v) (h' : Clean v') : Clean (v ++ v') := by
  intro c hc
  rw [String.toList_append, mem_append] at hc
  exact hc.elim (h c) (h' c)

theorem isOrdinary_of_isDigit {c : Char} (h : isDigit c) : isOrdinary c := by
  have hQuote : c ≠ Text.doubleQuote := by
    rintro rfl
    revert h
    decide
  simp [isOrdinary, isPlain_of_isDigit h, hQuote]

theorem clean_six (x : Float) : Clean (six x) := by
  intro c hc
  have hNumeric := isNumeric_of_mem_six hc
  simp only [isNumeric, Bool.or_eq_true] at hNumeric
  obtain hDigit | hOther := hNumeric
  · exact isOrdinary_of_isDigit hDigit
  · have hAll : ∀ c ∈ ['-', '.', 'a', 'f', 'i', 'n'], isOrdinary c := by decide
    exact hAll c (by simpa using hOther)

theorem clean_toString (n : Nat) : Clean (toString n) :=
  fun _ hc => isOrdinary_of_isDigit (isDigit_of_mem_toString hc)

theorem clean_toString_int (n : Int) : Clean (toString n) := by
  intro c hc
  obtain rfl | hDigit := isDigit_of_mem_toString_int hc
  · decide
  · exact isOrdinary_of_isDigit hDigit

structure Head.IsClean (head : Head) : Prop where
  name : isName head.name
  keys : ∀ a ∈ head.attributes, isName a.1 ∧ a.1.toList ≠ namespaceWord
  values : ∀ a ∈ head.attributes, Clean a.2

namespace Head

variable {head : Head}

theorem IsClean.sound (h : head.IsClean) : head.Sound :=
  ⟨h.name, h.keys, fun a ha => notMem_of_clean (h.values a ha)⟩

theorem IsClean.taken (h : head.IsClean) : ∀ a ∈ head.attributes, Markup.taken a.2 = some a.2 :=
  fun a ha => taken_of_clean (h.values a ha)

theorem IsClean.fits (h : head.IsClean) : head.Fits ↔ head.Distinct := by
  refine ⟨Fits.distinct, fun hDistinct => ⟨hDistinct, fun a ha => ?_⟩⟩
  rw [h.taken a ha]
  rfl

theorem IsClean.tag_eq (h : head.IsClean) {place : Nat} {tag : Tag} (hTag : head.unified.tag? place = some tag) :
    tag = ⟨place, head.name, head.attributes⟩ :=
  Option.some.inj (hTag.symm.trans (tag?_of_taken (fits_of_tag? hTag).distinct h.taken place))

end Head

/-! ## Rows -/

/-- What is to be said of an element: when it can be read, and what it is read as. -/
structure Sight where
  readable : Prop
  shows : Import.Element → Prop

/-- An element is read as told where it can be read, and as nothing elsewhere. -/
structure Spelling.Offers (s : Spelling) (x : Sight) : Prop where
  sound : s.Sound
  fits : s.Fits ↔ x.readable
  shows : ∀ place e, s.Stands place e → x.shows e

def Rows (text : String) (xs : List Sight) : Prop :=
  ∃ rows : List (String × Spelling), text.toList = rows.flatMap (fun r => r.1.toList ++ (r.2.chars ++ ['\n'])) ∧
    (∀ r ∈ rows, ∀ c ∈ r.1.toList, isSpace c) ∧ Forall₂ (fun x r => Spelling.Offers r.2 x) xs rows

section Rows

variable {text text' lead : String} {xs ys : List Sight} {head : Head}

theorem rows_nil : Rows "" [] := ⟨[], rfl, by simp, .nil⟩

theorem Rows.append (h : Rows text xs) (h' : Rows text' ys) : Rows (text ++ text') (xs ++ ys) := by
  obtain ⟨rows, hText, hLeads, hOffers⟩ := h
  obtain ⟨rows', hText', hLeads', hOffers'⟩ := h'
  refine ⟨rows ++ rows', ?_, ?_, rel_append hOffers hOffers'⟩
  · rw [String.toList_append, hText, hText', flatMap_append]
  · intro r hr
    exact (mem_append.mp hr).elim (hLeads r) (hLeads' r)

theorem rows_single {s : Spelling} {x : Sight} (hLead : ∀ c ∈ lead.toList, isSpace c)
    (hText : text.toList = lead.toList ++ (s.chars ++ ['\n'])) (h : s.Offers x) : Rows text [x] :=
  ⟨[(lead, s)], by simpa using hText, by simpa using hLead, .cons h .nil⟩

theorem Rows.imp {x y : Sight} (h : Rows text [x]) (hReadable : x.readable ↔ y.readable)
    (hShows : ∀ e, x.shows e → y.shows e) : Rows text [y] := by
  obtain ⟨rows, hText, hLeads, hOffers⟩ := h
  cases hOffers with
  | @cons _ r _ _ hFirst hRest =>
    cases hRest
    refine ⟨[r], hText, hLeads, .cons ⟨hFirst.sound, hFirst.fits.trans hReadable, fun place e hStands => ?_⟩ .nil⟩
    exact hShows e (hFirst.shows place e hStands)

theorem Rows.indent {x : Sight} (h : Rows text [x]) (hLead : ∀ c ∈ lead.toList, isSpace c) : Rows (lead ++ text) [x] := by
  obtain ⟨rows, hText, hLeads, hOffers⟩ := h
  cases hOffers with
  | @cons _ r _ _ hFirst hRest =>
    cases hRest
    refine ⟨[(lead ++ r.1, r.2)], ?_, ?_, .cons hFirst .nil⟩
    · simp [hText]
    · intro r' hr' c hc
      obtain rfl := mem_singleton.mp hr'
      rw [String.toList_append, mem_append] at hc
      exact hc.elim (hLead c) (hLeads r (by simp) c)

theorem Rows.foldl {α : Type} {f : α → String} {l : List α} (h : Rows text ys)
    (hEach : Forall₂ (fun a x => Rows (f a) [x]) l xs) : Rows (l.foldl (fun s a => s ++ f a) text) (ys ++ xs) := by
  induction hEach generalizing text ys with
  | nil => simpa using h
  | cons hFirst _ ih => simpa using ih (h.append hFirst)

theorem sound_of_mem {rows : List (String × Spelling)} (h : Forall₂ (fun x r => Spelling.Offers r.2 x) xs rows)
    {r : String × Spelling} (hr : r ∈ rows) : r.2.Sound := by
  induction h with
  | nil => cases hr
  | cons hFirst _ ih =>
    obtain rfl | hr := mem_cons.mp hr
    · exact hFirst.sound
    · exact ih hr

theorem fits_iff_readable {rows : List (String × Spelling)} (h : Forall₂ (fun x r => Spelling.Offers r.2 x) xs rows) :
    (∀ r ∈ rows, r.2.Fits) ↔ ∀ x ∈ xs, x.readable := by
  induction h with
  | nil => simp
  | cons hFirst _ ih => rw [forall_mem_cons, forall_mem_cons, hFirst.fits, ih]

def Head.sight (head : Head) : Sight where
  readable := head.Distinct
  shows e := e.1.name = head.name ∧ e.1.attributes = head.attributes ∧ elements e.2 = []

theorem rows_leaf {gap : String} (hHead : head.IsClean) (hLead : ∀ c ∈ lead.toList, isSpace c)
    (hGap : ∀ c ∈ gap.toList, isSpace c)
    (hText : text.toList = lead.toList ++ ((Spelling.leaf head gap).chars ++ ['\n'])) : Rows text [head.sight] := by
  refine rows_single hLead hText ⟨⟨hHead.sound, hGap⟩, fits_leaf.trans hHead.fits, fun place ⟨tag, ts⟩ hStands => ?_⟩
  obtain ⟨hTag, hInside⟩ := hStands.leaf
  obtain rfl : tag = _ := hHead.tag_eq hTag
  exact ⟨rfl, rfl, hInside⟩

def Head.sightAround (head : Head) (xs : List Sight) : Sight where
  readable := head.Distinct ∧ ∀ x ∈ xs, x.readable
  shows e := e.1.name = head.name ∧ e.1.attributes = head.attributes ∧ Forall₂ (fun x e => x.shows e) xs (elements e.2)

theorem isProse_of_blank {text : String} (h : ∀ c ∈ text.toList, isSpace c) :
    ∀ c ∈ ("\n" ++ text).toList, isProse c := by
  intro c hc
  rw [String.toList_append, mem_append] at hc
  obtain hc | hc := hc
  · obtain rfl : c = '\n' := by simpa using hc
    decide
  · exact Element.isProse_of_isSpace (h c hc)

theorem flatMap_rows (rows : List (String × Spelling)) (tail : List Char) :
    '\n' :: (rows.flatMap (fun r => r.1.toList ++ (r.2.chars ++ ['\n'])) ++ tail) =
      (rows.map fun r => ("\n" ++ r.1, r.2)).flatMap (fun r => r.1.toList ++ r.2.chars) ++ '\n' :: tail := by
  induction rows with
  | nil => rfl
  | cons r rows ih =>
    simp only [flatMap_cons, map_cons, append_assoc]
    rw [show ['\n'] ++ (rows.flatMap (fun r => r.1.toList ++ (r.2.chars ++ ['\n'])) ++ tail) =
      '\n' :: (rows.flatMap (fun r => r.1.toList ++ (r.2.chars ++ ['\n'])) ++ tail) from rfl, ih]
    simp

theorem rows_around {body tail : String} (hHead : head.IsClean) (hLead : ∀ c ∈ lead.toList, isSpace c)
    (hTail : ∀ c ∈ tail.toList, isSpace c) (hBody : Rows body xs)
    (hText : text.toList = lead.toList ++ (head.chars ++ ('>' :: '\n' :: (body.toList ++ (tail.toList ++
      ('<' :: '/' :: (head.name.toList ++ ['>', '\n']))))))) : Rows text [head.sightAround xs] := by
  obtain ⟨rows, hRows, hLeads, hOffers⟩ := hBody
  -- The rows with the end of the line before them are what stands inside.
  let items := rows.map fun r => ("\n" ++ r.1, r.2)
  have hItems : Forall₂ (fun x r => Spelling.Offers r.2 x) xs items := by
    rw [forall₂_map_right_iff]
    exact hOffers
  have hSound : (ofList items ("\n" ++ tail)).Sound := by
    refine sound_ofList (fun r hr => ?_) (isProse_of_blank hTail)
    obtain ⟨r', hr', rfl⟩ := mem_map.mp hr
    have hSpelt : r'.2.Sound := sound_of_mem hOffers hr'
    exact ⟨isProse_of_blank (hLeads r' hr'), hSpelt⟩
  refine rows_single (s := .node head (.ofList items ("\n" ++ tail))) hLead ?_ ⟨⟨hHead.sound, hSound⟩, ?_, ?_⟩
  · have hInner := flatMap_rows rows (tail.toList ++ ('<' :: '/' :: (head.name.toList ++ ['>', '\n'])))
    rw [hText, hRows]
    rw [hInner]
    simp [Spelling.chars, chars_ofList, closing, items]
  · rw [fits_node, hHead.fits, fits_iff_readable hItems]
    rfl
  · rintro place ⟨tag, ts⟩ hStands
    obtain ⟨hTag, after, hInner⟩ := hStands.node
    obtain rfl : tag = _ := hHead.tag_eq hTag
    refine ⟨rfl, rfl, (forall₂_trans hItems (forall₂_of_trees? hInner)).imp ?_⟩
    rintro x kid ⟨r, hOffers, k, hKid⟩
    exact hOffers.shows k kid hKid

end Rows

/-! ## Documents -/

/-- A text of one row is a document just if the element can be read, and it is read as told. -/
theorem read_rows {text : String} {x : Sight} (h : Rows text [x]) : ((read text).2 = none ↔ x.readable) ∧
    (x.readable → ∃ e : Import.Element, read text = ((Tree.element e.1 e.2).events, none) ∧
      Import.Distinct (marks (.element e.1 e.2)) ∧ x.shows e) := by
  obtain ⟨rows, hText, hLeads, hOffers⟩ := h
  cases hOffers with
  | @cons _ r _ _ hFirst hRest =>
    cases hRest
    obtain ⟨hNone, hRead⟩ := read_sound hFirst.sound (hLeads r (by simp)) (by simpa using hText)
    rw [hFirst.fits] at hNone hRead
    refine ⟨hNone, fun hx => ?_⟩
    obtain ⟨e, hStands, hDistinct, hEvents⟩ := hRead hx
    exact ⟨e, hEvents, hDistinct, hFirst.shows 0 e hStands⟩

end SceneExchange.Markup
