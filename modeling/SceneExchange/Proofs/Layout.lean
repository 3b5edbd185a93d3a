import SceneExchange.Markup.Element
import SceneExchange.Proofs.Numerals
import SceneExchange.Proofs.Spelling
import SceneExchange.Proofs.Stream
import SceneExchange.Proofs.Lists

/-!
# Reading elements as they are written

An element is written with its attributes shown, and a content that is text stands as it is. Where
every content of an element spells an element, the whole element does, and it is read with one child
for each content, in their order. Contents that are texts may spell elements too, so the written form
of an element has more children than the element itself.
-/

open List Option

namespace SceneExchange.Markup

open Spelling Text

open Import (Mark elements marks marksOf marks_element marksOf_append marksOf_cons)

/-! ## Lists of elements -/

def Inner.ofList (items : List (String × Spelling)) (tail : String) : Inner :=
  items.foldr (fun x rest => .more x.1 x.2 rest) (.last tail)

def Spelling.around (head : Head) (items : List (String × Spelling)) (tail : String) : Spelling :=
  if items.isEmpty then .leaf head "" else .node head (.ofList items tail)

section Lists

variable {head : Head} {items : List (String × Spelling)} {tail : String}

theorem Inner.chars_ofList : (Inner.ofList items tail).chars =
    items.flatMap (fun x => x.1.toList ++ x.2.chars) ++ tail.toList := by
  induction items with
  | nil => rfl
  | cons x items ih =>
    change x.1.toList ++ (x.2.chars ++ (Inner.ofList items tail).chars) = _
    simp [ih]

theorem Spelling.chars_around (hItems : items ≠ []) : (Spelling.around head items tail).chars =
    head.chars ++ ('>' :: (items.flatMap (fun x => x.1.toList ++ x.2.chars) ++
      (tail.toList ++ ('<' :: '/' :: (head.name.toList ++ ['>']))))) := by
  rw [Spelling.around, if_neg (by simpa using hItems), chars, Inner.chars_ofList]
  simp [closing]

theorem Inner.sound_ofList {p : Char → Bool} (hItems : ∀ x ∈ items, (∀ c ∈ x.1.toList, p c) ∧ x.2.SoundIn p)
    (hTail : ∀ c ∈ tail.toList, p c) : (Inner.ofList items tail).SoundIn p := by
  induction items with
  | nil => exact hTail
  | cons x items ih =>
    obtain ⟨hx, hItems⟩ := forall_mem_cons.mp hItems
    exact ⟨hx.1, hx.2, ih hItems⟩

theorem Inner.unified_ofList : (Inner.ofList items tail).unified =
    .ofList (items.map fun x => (Markup.unified x.1, x.2.unified)) (Markup.unified tail) := by
  induction items with
  | nil => rfl
  | cons x items ih =>
    change Inner.more _ _ (Inner.ofList items tail).unified = _
    rw [ih]
    rfl

theorem Inner.trees?_ofList_cons (x : String × Spelling) (place : Nat) :
    (Inner.ofList (x :: items) tail).unified.trees? place = (x.2.unified.tree? place).bind fun y =>
      ((Inner.ofList items tail).unified.trees? y.2).map fun z => (textTrees (Markup.unified x.1) ++ y.1 :: z.1, z.2) := rfl

end Lists

/-! ## Places -/

theorem name_of_tag? {head : Head} {place : Nat} {tag : Tag} (h : head.tag? place = some tag) :
    tag.name = head.name ∧ tag.place = place := by
  obtain ⟨-, as, -, rfl⟩ := Head.tag?_eq_some_iff.mp h
  exact ⟨rfl, rfl⟩

@[simp] theorem marksOf_textTrees (text : String) : marksOf (textTrees text) = [] := by
  unfold textTrees
  split <;> rfl

/-- Marks come one after the other, each once, and have their places in between. -/
structure Between (n n' : Nat) (ms : List Mark) : Prop where
  le : n ≤ n'
  distinct : Import.Distinct ms
  places : ∀ m ∈ ms, n ≤ m.tag.place ∧ m.tag.place < n'

theorem between_nil (n : Nat) : Between n n [] := ⟨Nat.le_refl n, nodup_nil, by simp⟩

theorem Between.append {n m n' : Nat} {ms ms' : List Mark} (h : Between n m ms) (h' : Between m n' ms') :
    Between n n' (ms ++ ms') := by
  have hn := h.le
  have hn' := h'.le
  refine ⟨by omega, ?_, fun k hk => ?_⟩
  · rw [Import.Distinct, map_append, nodup_append]
    refine ⟨h.distinct, h'.distinct, fun x hx y hy hSame => ?_⟩
    obtain ⟨k, hk, rfl⟩ := mem_map.mp hx
    obtain ⟨k', hk', rfl⟩ := mem_map.mp hy
    have hPlace := congrArg Prod.snd hSame
    have := h.places k hk
    have := h'.places k' hk'
    omega
  · obtain hk | hk := mem_append.mp hk
    · have := h.places k hk
      omega
    · have := h'.places k hk
      omega

theorem Between.around {n n' : Nat} {ms : List Mark} {tag : Tag} (h : Between (n + 1) n' ms) (hTag : tag.place = n) :
    Between n n' (⟨false, tag⟩ :: (ms ++ [⟨true, tag⟩])) := by
  have hn := h.le
  have hNew : ∀ m ∈ ms, m.tag.place ≠ n := by
    intro m hm
    have := h.places m hm
    omega
  refine ⟨by omega, ?_, fun k hk => ?_⟩
  · have hEnds : Import.Distinct (ms ++ [⟨true, tag⟩]) := by
      rw [Import.Distinct, map_append, nodup_append]
      refine ⟨h.distinct, by simp, fun x hx y hy hSame => ?_⟩
      obtain ⟨m, hm, rfl⟩ := mem_map.mp hx
      obtain rfl := mem_singleton.mp hy
      exact hNew m hm ((congrArg Prod.snd hSame).trans hTag)
    refine nodup_cons.mpr ⟨fun hMem => ?_, hEnds⟩
    obtain ⟨m, hm, hSame⟩ := mem_map.mp hMem
    obtain hm | hm := mem_append.mp hm
    · exact hNew m hm ((congrArg Prod.snd hSame).trans hTag)
    · obtain rfl := mem_singleton.mp hm
      cases congrArg Prod.fst hSame
  · simp only [mem_cons, mem_append, not_mem_nil, or_false] at hk
    obtain rfl | hk | rfl := hk
    · simp only [hTag]
      omega
    · have := h.places k hk
      omega
    · simp only [hTag]
      omega

mutual

theorem Spelling.between_marks {s : Spelling} {n n' : Nat} {t : Tree} (h : s.tree? n = some (t, n')) :
    Between n n' (marks t) := by
  cases s with
  | leaf head gap =>
    obtain ⟨tag, hTag, hSame⟩ := Option.map_eq_some_iff.mp h
    cases hSame
    rw [marks_element]
    exact (between_nil _).around (name_of_tag? hTag).2
  | node head inner =>
    obtain ⟨tag, hTag, h⟩ := bind_eq_some_iff.mp h
    obtain ⟨⟨ts, m⟩, hInner, hSame⟩ := Option.map_eq_some_iff.mp h
    cases hSame
    rw [marks_element]
    exact (Inner.between_marks hInner).around (name_of_tag? hTag).2

theorem Inner.between_marks {i : Inner} {n n' : Nat} {ts : List Tree} (h : i.trees? n = some (ts, n')) :
    Between n n' (marksOf ts) := by
  cases i with
  | last text =>
    cases h
    rw [marksOf_textTrees]
    exact between_nil n
  | more text first rest =>
    obtain ⟨⟨t, m⟩, hFirst, h⟩ := bind_eq_some_iff.mp h
    obtain ⟨⟨us, m'⟩, hRest, hSame⟩ := Option.map_eq_some_iff.mp h
    cases hSame
    rw [marksOf_append, marksOf_textTrees, nil_append, marksOf_cons]
    exact (Spelling.between_marks hFirst).append (Inner.between_marks hRest)

end

/-! ## Children -/

def Spelling.Stands (s : Spelling) (place : Nat) (e : Import.Element) : Prop :=
  ∃ after, s.unified.tree? place = some (.element e.1 e.2, after)

def Head.Stands (head : Head) (place : Nat) (e : Import.Element) : Prop :=
  head.unified.tag? place = some e.1 ∧ elements e.2 = []

/-- A start tag is read at the given place, with children inside that come from the items. -/
def Head.Holds {α : Type} (head : Head) (items : List α) (R : α → Nat → Import.Element → Prop) (place : Nat)
    (e : Import.Element) : Prop :=
  head.unified.tag? place = some e.1 ∧ Forall₂ (fun a kid => ∃ k, R a k kid) items (elements e.2)

section Trees

variable {head : Head} {place : Nat} {e : Import.Element}

theorem elements_append (ts us : List Tree) : elements (ts ++ us) = elements ts ++ elements us := by
  induction ts with
  | nil => rfl
  | cons t ts ih => cases t <;> simp [elements, ih]

theorem elements_textTrees (text : String) : elements (textTrees text) = [] := by
  unfold textTrees
  split <;> rfl

theorem Spelling.exists_of_tree? {s : Spelling} {n n' : Nat} {t : Tree} (h : s.tree? n = some (t, n')) :
    ∃ e : Import.Element, t = .element e.1 e.2 := by
  cases s with
  | leaf head gap =>
    obtain ⟨tag, -, ⟨⟩⟩ := Option.map_eq_some_iff.mp h
    exact ⟨(tag, []), rfl⟩
  | node head inner =>
    obtain ⟨tag, -, h⟩ := bind_eq_some_iff.mp h
    obtain ⟨⟨ts, m⟩, -, ⟨⟩⟩ := Option.map_eq_some_iff.mp h
    exact ⟨(tag, ts), rfl⟩

theorem Spelling.Stands.leaf {gap : String} (h : (Spelling.leaf head gap).Stands place e) : head.Stands place e := by
  obtain ⟨tag, ts⟩ := e
  obtain ⟨after, h⟩ := h
  obtain ⟨_, hTag, ⟨⟩⟩ := Option.map_eq_some_iff.mp h
  exact ⟨hTag, rfl⟩

theorem Spelling.Stands.node {inner : Inner} (h : (Spelling.node head inner).Stands place e) :
    head.unified.tag? place = some e.1 ∧ ∃ after, inner.unified.trees? (place + 1) = some (e.2, after) := by
  obtain ⟨tag, ts⟩ := e
  obtain ⟨after, h⟩ := h
  obtain ⟨_, hTag, h⟩ := bind_eq_some_iff.mp h
  obtain ⟨⟨_, m⟩, hInner, ⟨⟩⟩ := Option.map_eq_some_iff.mp h
  exact ⟨hTag, _, hInner⟩

theorem forall₂_of_trees? {items : List (String × Spelling)} {tail : String} {n n' : Nat} {ts : List Tree}
    (h : (Inner.ofList items tail).unified.trees? n = some (ts, n')) :
    Forall₂ (fun x kid => ∃ k, x.2.Stands k kid) items (elements ts) := by
  rw [Inner.unified_ofList] at h
  induction items generalizing n ts with
  | nil =>
    cases h
    rw [elements_textTrees]
    exact .nil
  | cons x items ih =>
    obtain ⟨⟨t, m⟩, hFirst, h⟩ := bind_eq_some_iff.mp h
    obtain ⟨⟨us, m'⟩, hRest, ⟨⟩⟩ := Option.map_eq_some_iff.mp h
    obtain ⟨e, rfl⟩ := Spelling.exists_of_tree? hFirst
    rw [elements_append, elements_textTrees]
    exact .cons ⟨n, m, hFirst⟩ (ih hRest)

theorem Spelling.Stands.around {items : List (String × Spelling)} {tail : String}
    (h : (Spelling.around head items tail).Stands place e) : head.Holds items (fun x => x.2.Stands) place e := by
  unfold Spelling.around at h
  split at h
  · rename_i hItems
    obtain rfl := List.isEmpty_iff.mp hItems
    exact ⟨h.leaf.1, h.leaf.2 ▸ .nil⟩
  · obtain ⟨hTag, after, hInner⟩ := h.node
    exact ⟨hTag, forall₂_of_trees? hInner⟩

end Trees

/-! ## Attributes -/

/-- What a reader takes a value for that is written as it is. -/
def taken (v : String) : Option String := valueText? (unified v)

theorem unified_of_notMem {v : String} (h : '\r' ∉ v.toList) : unified v = v := by
  have hLines : unifyLines v.toList = v.toList := by
    simpa [unifyLines] using unifyLines_append_of_notMem h []
  rw [unified, hLines, String.ofList_toList]

theorem taken_of_plain {v : String} (h : ∀ c ∈ v.toList, isPlain c = true ∨ c = ' ') : taken v = some v := by
  have hReturn : '\r' ∉ v.toList := by
    intro hMem
    have := h _ hMem
    revert this
    decide
  rw [taken, unified_of_notMem hReturn, valueText?, valueChars?_plain h, map_some, String.ofList_toList]

theorem isPlain_of_isDigit {c : Char} (h : Number.isDigit c) : isPlain c := by
  have hBounds := Number.toNat_of_isDigit h
  have hOther : ∀ d ∈ ['<', '&', ' ', '\n', '\t', '\r'], c ≠ d := by
    have hNone : ∀ d ∈ ['<', '&', ' ', '\n', '\t', '\r'], Number.isDigit d = false := by decide
    rintro d hd rfl
    exact absurd h (by simp [hNone c hd])
  simp only [mem_cons, not_mem_nil, or_false, forall_eq_or_imp, forall_eq] at hOther
  have hLarge : ¬c.toNat < 32 := by omega
  simp [isPlain, isLegal, isSpace, hOther, hLarge]
  omega

theorem exists_of_taken {v w : String} {c : Char} {rest : List Char} (hv : v.toList = c :: rest) (hc : isPlain c)
    (h : taken v = some w) : ∃ more, w.toList = c :: more := by
  have hReturn : '\r' ∉ [c] := by
    rintro hMem
    obtain rfl := mem_singleton.mp hMem
    revert hc
    decide
  have hLines : unifyLines v.toList = c :: unifyLines rest := by
    rw [hv]
    exact unifyLines_append_of_notMem hReturn rest
  simp only [isPlain, Bool.and_eq_true, Bool.not_eq_true', bne_iff_ne, ne_eq] at hc
  rw [taken, valueText?, toList_unified, hLines] at h
  simp only [valueChars?, beq_iff_eq, hc, if_false, Bool.not_true, Bool.or_false, Bool.false_eq_true,
    Option.map_map, Option.map_eq_some_iff] at h
  obtain ⟨more, -, rfl⟩ := h
  exact ⟨more, String.toList_ofList⟩

theorem lookup_of_readAttributes {as bs : List (String × String)}
    (h : (as.map fun a => (a.1, unified a.2)).mapM Head.readAttribute? = some bs) (key : String) :
    bs.lookup key = (as.lookup key).bind taken := by
  induction as generalizing bs with
  | nil =>
    cases h
    rfl
  | cons a as ih =>
    rw [map_cons, mapM_cons] at h
    obtain ⟨b, hb, h⟩ := bind_eq_some_iff.mp h
    obtain ⟨bs, hbs, h⟩ := bind_eq_some_iff.mp h
    cases h
    obtain ⟨w, hw, rfl⟩ := Option.map_eq_some_iff.mp hb
    rw [List.lookup_cons, List.lookup_cons]
    cases key == a.1 with
    | true => exact hw.symm
    | false => exact ih hbs

theorem attribute?_of_tag? {head : Head} {place : Nat} {tag : Tag} (h : head.unified.tag? place = some tag) (key : String) :
    tag.attribute? key = (head.attributes.lookup key).bind taken := by
  obtain ⟨-, as, hAs, rfl⟩ := Head.tag?_eq_some_iff.mp h
  exact lookup_of_readAttributes hAs key

/-- A start tag that can be read: no key comes twice, and every value is taken for something. -/
structure Head.Fits (head : Head) : Prop where
  distinct : head.Distinct
  values : ∀ a ∈ head.attributes, (taken a.2).isSome

theorem Head.distinct_unified {head : Head} : head.unified.Distinct ↔ head.Distinct := by
  simp [Distinct, unified, Function.comp_def]

theorem Head.isSome_tag? {head : Head} (place : Nat) : (head.unified.tag? place).isSome ↔ head.Fits := by
  rw [isSome_iff_ne_none, Ne, tag?_eq_none_iff, not_or, not_not, distinct_unified]
  constructor
  · rintro ⟨hDistinct, hValues⟩
    refine ⟨hDistinct, fun a ha => ?_⟩
    rw [taken, valueText?, isSome_map, isSome_iff_ne_none]
    exact fun hNone => hValues ⟨_, mem_map.mpr ⟨a, ha, rfl⟩, hNone⟩
  · rintro ⟨hDistinct, hValues⟩
    refine ⟨hDistinct, ?_⟩
    rintro ⟨_, hMem, hNone⟩
    obtain ⟨a, ha, rfl⟩ := mem_map.mp hMem
    have hSome := hValues a ha
    rw [taken, valueText?, isSome_map, hNone] at hSome
    cases hSome

theorem Head.fits_of_tag? {head : Head} {place : Nat} {tag : Tag} (h : head.unified.tag? place = some tag) : head.Fits :=
  (isSome_tag? place).mp (isSome_of_eq_some h)

theorem exists_taken {head : Head} {place : Nat} {tag : Tag} (h : head.unified.tag? place = some tag) {key v : String}
    (hKey : head.attributes.lookup key = some v) : ∃ w, taken v = some w ∧ tag.attribute? key = some w := by
  obtain ⟨w, hw⟩ := isSome_iff_exists.mp ((Head.fits_of_tag? h).values _ (Table.mem_of_lookup hKey))
  exact ⟨w, hw, by rw [attribute?_of_tag? h, hKey, bind_some, hw]⟩

theorem Head.tag?_of_taken {head : Head} (hDistinct : head.Distinct) (h : ∀ a ∈ head.attributes, taken a.2 = some a.2)
    (place : Nat) : head.unified.tag? place = some ⟨place, head.name, head.attributes⟩ := by
  have hRead (as : List (String × String)) (hAs : ∀ a ∈ as, taken a.2 = some a.2) :
      (as.map fun a => (a.1, Markup.unified a.2)).mapM readAttribute? = some as := by
    induction as with
    | nil => rfl
    | cons a as ih =>
      obtain ⟨hFirst, hRest⟩ := forall_mem_cons.mp hAs
      rw [taken] at hFirst
      rw [map_cons, mapM_cons, ih hRest, readAttribute?, hFirst]
      rfl
  exact tag?_eq_some_iff.mpr ⟨distinct_unified.mpr hDistinct, _, hRead _ h, rfl⟩

mutual

/-- The start tags of an element and of all that stand in it. -/
def Spelling.heads : Spelling → List Head
  | .leaf head _ => [head]
  | .node head inner => head :: inner.heads

def Inner.heads : Inner → List Head
  | .last _ => []
  | .more _ first rest => first.heads ++ rest.heads

end

def Spelling.Fits (s : Spelling) : Prop := ∀ head ∈ s.heads, head.Fits

mutual

theorem Spelling.isSome_tree? (s : Spelling) (place : Nat) : (s.unified.tree? place).isSome ↔ s.Fits := by
  cases s with
  | leaf head gap =>
    rw [Spelling.Fits, Spelling.heads, forall_mem_singleton, ← Head.isSome_tag? place]
    simp [Spelling.unified, Spelling.tree?]
  | node head inner =>
    rw [Spelling.Fits, Spelling.heads, forall_mem_cons, ← Head.isSome_tag? place, ← Inner.isSome_trees? inner (place + 1)]
    cases hTag : head.unified.tag? place <;> simp [Spelling.unified, Spelling.tree?, hTag]

theorem Inner.isSome_trees? (i : Inner) (place : Nat) :
    (i.unified.trees? place).isSome ↔ ∀ head ∈ i.heads, head.Fits := by
  cases i with
  | last text => simp [Inner.unified, Inner.trees?, Inner.heads]
  | more text first rest =>
    have hRest : (∀ head ∈ (Inner.more text first rest).heads, head.Fits) ↔ first.Fits ∧ ∀ head ∈ rest.heads, head.Fits :=
      forall_mem_append
    rw [hRest, ← Spelling.isSome_tree? first place]
    cases hTree : first.unified.tree? place with
    | none => simp [Inner.unified, Inner.trees?, hTree]
    | some y =>
      rw [← Inner.isSome_trees? rest y.2]
      simp [Inner.unified, Inner.trees?, hTree]

end

section Fits

variable {head : Head} {items : List (String × Spelling)} {tail : String}

theorem fits_leaf {gap : String} : (Spelling.leaf head gap).Fits ↔ head.Fits := forall_mem_singleton

theorem fits_node : (node head (.ofList items tail)).Fits ↔ head.Fits ∧ ∀ x ∈ items, x.2.Fits := by
  refine forall_mem_cons.trans (and_congr_right' ?_)
  induction items with
  | nil => simp [Inner.ofList, Inner.heads]
  | cons x items ih =>
    rw [forall_mem_cons, ← ih]
    exact forall_mem_append

theorem fits_around (h : head.Fits) (hItems : ∀ x ∈ items, x.2.Fits) : (Spelling.around head items tail).Fits := by
  unfold Spelling.around
  split
  · exact fits_leaf.mpr h
  · exact fits_node.mpr ⟨h, hItems⟩

end Fits

/-- A text that spells an element after blanks is a document just if the element fits, and is read as its tree. -/
theorem read_sound {text blank : String} {rest : List Char} {s : Spelling} (hSound : s.Sound)
    (hBlank : ∀ c ∈ blank.toList, isSpace c) (hText : text.toList = blank.toList ++ (s.chars ++ rest)) :
    ((read text).2 = none ↔ s.Fits) ∧ (s.Fits → ∃ e : Import.Element, s.Stands 0 e ∧
      Import.Distinct (marks (.element e.1 e.2)) ∧ read text = ((Tree.element e.1 e.2).events, none)) := by
  have hRead := read_legible legible_isProse hSound hBlank hText
  have hSome := s.isSome_tree? 0
  cases hTree : s.unified.tree? 0 with
  | none =>
    rw [hTree] at hRead hSome
    have hNot : ¬s.Fits := fun h => nomatch hSome.mpr h
    exact ⟨iff_of_false hRead hNot, fun h => absurd h hNot⟩
  | some x =>
    obtain ⟨t, after⟩ := x
    obtain ⟨e, rfl⟩ := Spelling.exists_of_tree? hTree
    rw [hTree] at hRead hSome
    exact ⟨iff_of_true (by rw [hRead]) (hSome.mp rfl), fun _ => ⟨e, ⟨after, hTree⟩, (between_marks hTree).distinct, hRead⟩⟩

/-- A head that is spelled as it should be, and whose values fit where `fits` holds. -/
def Head.Told (fits : Prop) (head : Head) : Prop := head.Sound ∧ (fits → head.Fits)

/-! ## Written elements -/

def shown (attributes : List (String × Datum)) : List (String × String) := attributes.map fun a => (a.1, a.2.display)

namespace Element

theorem toList_attributeText (attributes : List (String × Datum)) :
    (attributeText attributes).toList = (shown attributes).flatMap Head.attributeChars := by
  have hFold (start : String) :
      (attributes.foldl (fun s x => s ++ " " ++ x.1 ++ "=\"" ++ x.2.display ++ "\"") start).toList =
      start.toList ++ (shown attributes).flatMap Head.attributeChars := by
    induction attributes generalizing start with
    | nil => simp [shown]
    | cons a attributes ih =>
      rw [foldl_cons, ih]
      simp [shown, Head.attributeChars, doubleQuote]
  exact (hFold "").trans (nil_append _)

theorem writeContents_cons (lead : String) (c : Content) (cs : List Content) :
    writeContents lead (c :: cs) = writeContents lead [c] ++ writeContents lead cs := by
  cases c <;> simp [writeContents]

/-- The text of a content under a lead spells an element after blanks, and what is read of it is as told. It can be
read where the content fits. -/
def Laid (fits : Prop) (lead : String) (c : Content) (R : Nat → Import.Element → Prop) : Prop :=
  ∃ (blank : String) (s : Spelling), (writeContents lead [c]).toList = blank.toList ++ s.chars ∧
    (∀ ch ∈ blank.toList, isSpace ch) ∧ s.Sound ∧ (∀ place e, s.Stands place e → R place e) ∧ (fits → s.Fits)

section Laid

variable {fits : Prop} {lead : String} {c : Content} {R R' : Nat → Import.Element → Prop}
variable {name : String} {attributes : List (String × Datum)}

theorem Laid.imp (h : Laid fits lead c R) (hImp : ∀ place e, R place e → R' place e) : Laid fits lead c R' := by
  obtain ⟨blank, s, hText, hBlank, hSound, hStands, hFits⟩ := h
  exact ⟨blank, s, hText, hBlank, hSound, fun place e he => hImp place e (hStands place e he), hFits⟩

theorem laid_text {text blank gap : String} {head : Head}
    (hText : text.toList = blank.toList ++ (Spelling.leaf head gap).chars) (hBlank : ∀ ch ∈ blank.toList, isSpace ch)
    (hHead : head.Told fits) (hGap : ∀ ch ∈ gap.toList, isSpace ch) :
    Laid fits lead (.datum (.text text)) head.Stands := by
  refine ⟨blank, .leaf head gap, ?_, hBlank, ⟨hHead.1, hGap⟩, fun _ _ h => h.leaf, fun h => fits_leaf.mpr (hHead.2 h)⟩
  simpa [writeContents] using hText

theorem isProse_of_isSpace {ch : Char} (h : isSpace ch) : isProse ch := by
  simp only [isSpace, Bool.or_eq_true, beq_iff_eq] at h
  obtain ((rfl | rfl) | rfl) | rfl := h <;> decide

theorem laid_inline {text : String} (hLead : ∀ ch ∈ lead.toList, isSpace ch)
    (hHead : (Head.mk name (shown attributes)).Told fits) (hText : ∀ ch ∈ text.toList, isProse ch) :
    Laid fits lead (.element (.mk name attributes [.datum (.text text)])) (Head.mk name (shown attributes)).Stands := by
  refine ⟨lead, .node ⟨name, shown attributes⟩ (.ofList [] text), ?_, hLead, ⟨hHead.1, hText⟩, ?_,
    fun h => fits_node.mpr ⟨hHead.2 h, forall_mem_nil _⟩⟩
  · simp [writeContents, write, isInline, toList_attributeText, chars, Inner.chars_ofList, Head.chars, closing]
  · rintro place ⟨tag, ts⟩ h
    obtain ⟨hTag, after, ⟨⟩⟩ := h.node
    exact ⟨hTag, elements_textTrees _⟩

theorem laid_around {α : Type} {as : List α} {content : α → Content} {R : α → Nat → Import.Element → Prop}
    (hLead : ∀ ch ∈ lead.toList, isSpace ch) (hHead : (Head.mk name (shown attributes)).Told fits)
    (h : ∀ a ∈ as, Laid fits (lead ++ "\t") (content a) (R a)) :
    Laid fits lead (.element (.mk name attributes (as.map content))) ((Head.mk name (shown attributes)).Holds as R) := by
  let tail := if isInline (as.map content) then "" else lead
  have hItems : ∃ items : List (String × Spelling),
      (writeContents (lead ++ "\t") (as.map content)).toList = items.flatMap (fun x => x.1.toList ++ x.2.chars) ∧
      (∀ x ∈ items, (∀ ch ∈ x.1.toList, isProse ch) ∧ x.2.Sound) ∧
      Forall₂ (fun a x => ∀ place e, Spelling.Stands x.2 place e → R a place e) as items ∧
      (fits → ∀ x ∈ items, x.2.Fits) := by
    clear tail
    induction as with
    | nil => exact ⟨[], rfl, by simp, .nil, by simp⟩
    | cons a as ih =>
      obtain ⟨⟨blank, s, hText, hBlank, hSound, hStands, hFirst⟩, h⟩ := forall_mem_cons.mp h
      obtain ⟨items, hTexts, hSounds, hAll, hRest⟩ := ih h
      refine ⟨(blank, s) :: items, ?_, ?_, .cons hStands hAll, fun h => forall_mem_cons.mpr ⟨hFirst h, hRest h⟩⟩
      · rw [map_cons, writeContents_cons, String.toList_append, hText, hTexts, flatMap_cons]
      · exact forall_mem_cons.mpr ⟨⟨fun ch hch => isProse_of_isSpace (hBlank ch hch), hSound⟩, hSounds⟩
  obtain ⟨items, hTexts, hSounds, hAll, hReads⟩ := hItems
  have hTail : ∀ ch ∈ tail.toList, isProse ch := by
    unfold tail
    split
    · simp
    · exact fun ch hch => isProse_of_isSpace (hLead ch hch)
  refine ⟨lead, .around ⟨name, shown attributes⟩ items tail, ?_, hLead, ?_, fun place e hStands => ?_,
    fun h => fits_around (hHead.2 h) (hReads h)⟩
  · cases hAll with
    | nil => simp [writeContents, write, toList_attributeText, Spelling.around, chars, Head.chars, closing]
    | cons _ _ =>
      rw [chars_around (cons_ne_nil _ _), ← hTexts]
      simp [writeContents, write, toList_attributeText, Head.chars, tail]
  · unfold Spelling.around
    split
    · exact ⟨hHead.1, by simp⟩
    · exact ⟨hHead.1, Inner.sound_ofList hSounds hTail⟩
  · obtain ⟨hTag, hKids⟩ := hStands.around
    refine ⟨hTag, (forall₂_trans hAll hKids).imp ?_⟩
    rintro a kid ⟨x, hx, k, hStands⟩
    exact ⟨k, hx k kid hStands⟩

theorem laid_leaf (hLead : ∀ ch ∈ lead.toList, isSpace ch) (hHead : (Head.mk name (shown attributes)).Told fits) :
    Laid fits lead (.element (.leaf name attributes)) (Head.mk name (shown attributes)).Stands := by
  have hAround : Laid fits lead (.element (.mk name attributes ([].map id)))
      ((Head.mk name (shown attributes)).Holds ([] : List Content) fun _ _ _ => True) :=
    laid_around hLead hHead (forall_mem_nil _)
  exact hAround.imp fun place e hHolds => ⟨hHolds.1, forall₂_nil_left_iff.mp hHolds.2⟩

/-- A document is read as the tree of its root element, if it is read at all; it is where its root fits. -/
theorem read_laid (h : Laid fits lead c R) : (fits → (read (writeContents lead [c])).2 = none) ∧
    ((read (writeContents lead [c])).2 = none → ∃ e : Import.Element, R 0 e ∧
      Import.Distinct (marks (.element e.1 e.2)) ∧ (read (writeContents lead [c])).1 = (Tree.element e.1 e.2).events) := by
  obtain ⟨blank, s, hText, hBlank, hSound, hStands, hFits⟩ := h
  obtain ⟨hNone, hRead⟩ := read_sound hSound hBlank (by rw [hText, append_nil])
  refine ⟨fun h => hNone.mpr (hFits h), fun h => ?_⟩
  obtain ⟨e, hRoot, hDistinct, hEvents⟩ := hRead (hNone.mp h)
  exact ⟨e, hStands 0 e hRoot, hDistinct, by rw [hEvents]⟩

end Laid

end Element

end SceneExchange.Markup
