import SceneExchange.Proofs.MaterialElements
import SceneExchange.Proofs.ReadBack

/-!
# Labels in written materials

The values of a material are written as they are. Nearly all of them are numbers, words of the
program's own, and names without reserved characters, which are read as they are written. The labels
of color and number nodes are written as their user typed them: the text of a material is a
well-formed element just if a reader takes each of these for something.
-/

open List Option

namespace SceneExchange.Markup

/-- A text that is an element after blanks: every start tag has its end, no tag has two attributes of
one name, and no value holds a quote, an opening bracket or an ampersand that starts no reference. -/
def WellFormed (text : String) : Prop :=
  ∃ (blank : String) (s : Spelling), text.toList = blank.toList ++ s.chars ∧ (∀ c ∈ blank.toList, isSpace c) ∧
    s.Sound ∧ ∀ head ∈ s.heads, head.Fits

theorem wellFormed_iff_read {text blank : String} {s : Spelling} (hText : text.toList = blank.toList ++ s.chars)
    (hBlank : ∀ c ∈ blank.toList, isSpace c) (hSound : s.Sound) : WellFormed text ↔ (read text).2 = none := by
  constructor
  · rintro ⟨blank, s, hText, hBlank, hSound, hHeads⟩
    exact (read_sound hSound hBlank (by rw [hText, append_nil])).1.mpr hHeads
  · intro hNone
    exact ⟨blank, s, hText, hBlank, hSound, (read_sound hSound hBlank (by rw [hText, append_nil])).1.mp hNone⟩

/-! ## Printed texts -/

/-- A text of printable characters. -/
def Printed (text : String) : Prop := ∀ c ∈ text.toList, Text.isPrintable c

instance : DecidablePred Printed := fun text => inferInstanceAs (Decidable (∀ c ∈ text.toList, Text.isPrintable c))

def markupChars : List Char := [Text.doubleQuote, '<', '&']

theorem isOrdinary_of_isPrintable {c : Char} (h : Text.isPrintable c) (hMarkup : c ∉ markupChars) : isOrdinary c := by
  have hNone : ∀ n ∈ List.range 32 ++ [0xFFFE, 0xFFFF],
      Text.inRanges Text.unprintableRanges n 0 Text.unprintableRanges.size = true := by decide +kernel
  have hOther (n : Nat) (hn : n ∈ List.range 32 ++ [0xFFFE, 0xFFFF]) : c.toNat ≠ n := by
    rintro rfl
    rw [Text.isPrintable, hNone _ hn] at h
    cases h
  have hLarge : ¬c.toNat < 32 := fun hSmall => hOther _ (by simp [hSmall]) rfl
  have hLegal : isLegal c := by
    simp [isLegal, hLarge, hOther 0xFFFE (by simp), hOther 0xFFFF (by simp)]
  have hSpace (hc : isSpace c) : c = ' ' := by
    simp only [isSpace, Bool.or_eq_true, beq_iff_eq] at hc
    obtain ((rfl | rfl) | rfl) | rfl := hc
    · rfl
    all_goals exact absurd (by decide) hLarge
  simp only [markupChars, mem_cons, not_mem_nil, or_false, not_or] at hMarkup
  by_cases hc : isSpace c
  · obtain rfl := hSpace hc
    decide
  · simp [isOrdinary, isPlain, hLegal, hc, hMarkup]

theorem clean_of_printed {text : String} (h : Printed text) (hMarkup : ∀ c ∈ markupChars, c ∉ text.toList) : Clean text :=
  fun c hc => isOrdinary_of_isPrintable (h c hc) fun hMem => hMarkup c hMem hc

theorem mem_of_legal {name title : String} (h : Name.legal name = .ok title) {c : Char} (hc : c ∈ title.toList) :
    c ∈ name.toList ∨ c ∈ ['_', '0'] := by
  have hMapped {c : Char} (hc : c ∈ name.toList.map Name.replaceReserved) : c ∈ name.toList ∨ c ∈ ['_', '0'] := by
    obtain ⟨d, hd, rfl⟩ := mem_map.mp hc
    unfold Name.replaceReserved
    split
    · exact .inr (by simp)
    · exact .inl hd
  unfold Name.legal at h
  split at h
  · cases h
  · rename_i rest hList
    cases h
    rw [String.toList_ofList] at hc
    obtain rfl | hc := mem_cons.mp hc
    · exact .inr (by simp)
    · exact hMapped (hList ▸ hc)
  · cases h
    rw [String.toList_ofList] at hc
    exact hMapped hc

theorem clean_of_legal {name title : String} (hName : Printed name) (h : Name.legal name = .ok title) : Clean title := by
  have hReserved : ∀ c ∈ markupChars, c ∈ Name.reserved := by decide
  refine clean_of_printed (fun c hc => ?_) fun c hc => Name.notMem_of_legal h (hReserved c hc)
  have hOwn : ∀ c ∈ ['_', '0'], Text.isPrintable c := by decide +kernel
  obtain hc | hc := mem_of_legal h hc
  · exact hName c hc
  · exact hOwn c hc

end SceneExchange.Markup

namespace SceneExchange.Material

open SceneExchange.Graph
open Markup (Clean Printed WellFormed clean_of_legal)

/-- The names that an expression is written with. -/
def Expression.labels (e : Expression) : List Datum := (e.attributes.filter (·.1 == "Name")).map Prod.snd

def Document.labels (d : Document) : List Datum := (d.expressions.getD []).flatMap Expression.labels

section Values

variable {f : Forest} {names : List String} {v : Datum}

theorem Part.Shaped.clean {p : Part} (h : p.Shaped) (hv : v ∈ p.values) : Clean v.display := by
  cases h with
  | input _ hInnate =>
    simp only [Part.values, mem_cons, not_mem_nil, or_false] at hv
    obtain rfl | rfl := hv
    · exact hInnate.1.clean
    · exact hInnate.2.clean
  | mask => simp [Part.values] at hv
  | inert hInert =>
    cases hInert with
    | opening hPath =>
      obtain rfl : v = _ := by simpa [Part.values, Markup.Element.leaf, Markup.Element.attributes] using hv
      exact hPath
    | argument index hName =>
      obtain rfl | rfl : v = _ ∨ v = _ := by simpa [Part.values, Markup.Element.leaf, Markup.Element.attributes] using hv
      · exact (innate_int index).clean
      · exact hName
    | code => simp [Part.values, Markup.Element.attributes] at hv
  | coordinates e =>
    obtain rfl : v = _ := by simpa [Part.values, Markup.Element.leaf, Markup.Element.attributes] using hv
    exact (innate_int e).clean

theorem Expression.Plain.clean {e : Expression} (h : e.Plain f) {a : String × Datum} (ha : a ∈ e.attributes)
    (hPath : a.1 ≠ "PathName") : Clean a.2.display ∨ a.2 ∈ e.labels := by
  have hPlain := (h a ha).resolve_right hPath
  by_cases hName : a.1 = "Name"
  · exact .inr (mem_map.mpr ⟨a, mem_filter.mpr ⟨ha, by simp [hName]⟩, rfl⟩)
  · exact .inl (hPlain.clean hName)

theorem Expression.Plain.isLabel {e : Expression} (h : e.Plain f) (hv : v ∈ e.labels) : IsLabel f v := by
  obtain ⟨a, ha, rfl⟩ := mem_map.mp hv
  obtain ⟨ha, hName⟩ := mem_filter.mp ha
  have hName : a.1 = "Name" := by simpa using hName
  obtain hPlain | hPath := h a ha
  · exact hPlain.label hName
  · exact absurd (hName.symm.trans hPath) (by decide)

theorem Expression.Shaped.clean {e : Expression} (h : e.Shaped names) (hPlain : e.Plain f) (hNames : ∀ n ∈ names, Clean n)
    (hv : v ∈ e.values) : Clean v.display ∨ v ∈ e.labels := by
  obtain hv | hv := mem_append.mp hv
  · obtain ⟨a, ha, rfl⟩ := mem_map.mp hv
    by_cases hPath : a.1 = "PathName"
    · cases h with
      | ordinary _ hKeys =>
        have hNone : ∀ keys ∈ attributeKeys, "PathName" ∉ keys := by decide
        exact absurd (mem_map.mpr ⟨a, ha, hPath⟩) (hNone _ hKeys)
      | texture hName =>
        obtain rfl := mem_singleton.mp ha
        exact .inl (hNames _ hName)
      | object => cases ha
    · exact hPlain.clean ha hPath
  · obtain ⟨p, hp, hValue⟩ := mem_flatMap.mp hv
    refine .inl ?_
    cases h with
    | ordinary _ _ hParts => exact (hParts p hp).clean hValue
    | texture _ hParts => exact (hParts p hp).clean hValue
    | object hName =>
      obtain rfl := mem_singleton.mp hp
      have hWord : Clean "Texture" := by decide
      obtain rfl | rfl : v = _ ∨ v = _ := by
        simpa [Part.values, Markup.Element.leaf, Markup.Element.attributes] using hValue
      · exact hWord
      · exact hNames _ hName

theorem Entry.Shaped.clean {x : Entry} (h : x.Shaped) (hv : v ∈ x.values) : Clean v.display := by
  cases h with
  | channel _ hInnate =>
    simp only [Entry.values, mem_cons, not_mem_nil, or_false] at hv
    obtain rfl | rfl := hv
    · exact hInnate.1.clean
    · exact hInnate.2.clean
  | element => simp [Entry.values] at hv
  | text => simp [Entry.values] at hv

theorem Entry.Shaped.set {x : Entry} (h : x.Shaped) : x.Set := by
  cases h with
  | channel => trivial
  | element => trivial
  | text hSetting =>
    obtain ⟨name, key, value, rfl, hKey, hClean, -⟩ := hSetting.form
    exact ⟨name, key, value, rfl, hKey, Markup.notMem_of_clean hClean, isSome_of_eq_some (Markup.taken_of_clean hClean)⟩

end Values

section Documents

variable {f : Forest} {names : List String} {d : Document}

theorem Document.Shaped.clean (h : d.Shaped names) (hPlain : d.Plain f) (hNames : ∀ n ∈ names, Clean n) {v : Datum}
    (hv : v ∈ d.values) : Clean v.display ∨ v ∈ d.labels := by
  obtain hv | hv := mem_append.mp hv
  · obtain ⟨e, he, hv⟩ := mem_flatMap.mp hv
    cases hes : d.expressions with
    | none =>
      rw [hes] at he
      cases he
    | some es =>
      rw [hes] at he
      refine ((h.expressions es hes e he).clean (hPlain es hes e he) hNames hv).imp id fun hLabel => ?_
      exact mem_flatMap.mpr ⟨e, by rwa [hes], hLabel⟩
  · obtain ⟨x, hx, hv⟩ := mem_flatMap.mp hv
    exact .inl ((h.entries x hx).clean hv)

theorem Document.exists_expression {v : Datum} (hv : v ∈ d.labels) : ∃ es ∈ d.expressions, ∃ e ∈ es, v ∈ e.labels := by
  obtain ⟨e, he, hv⟩ := mem_flatMap.mp hv
  cases hes : d.expressions with
  | none =>
    rw [hes] at he
    cases he
  | some es =>
    rw [hes] at he
    exact ⟨es, rfl, e, he, hv⟩

theorem Document.Plain.isLabel (h : d.Plain f) {v : Datum} (hv : v ∈ d.labels) : IsLabel f v := by
  obtain ⟨es, hes, e, he, hv⟩ := Document.exists_expression hv
  exact (h es hes e he).isLabel hv

theorem Document.taken_of_stands {place : Nat} {e : Import.Element} (h : d.head.Holds d.items Item.Stands place e) :
    Taken d.labels := by
  intro v hv
  obtain ⟨es, hes, e, he, hv⟩ := Document.exists_expression hv
  obtain ⟨a, ha, rfl⟩ := mem_map.mp hv
  obtain ⟨ha, -⟩ := mem_filter.mp ha
  have hItem : Item.expressions es ∈ d.items :=
    mem_append_left _ (mem_toList.mpr (map_eq_some_iff.mpr ⟨es, hes, rfl⟩))
  obtain ⟨_, -, _, -, hKids⟩ := exists_mem_of_forall₂ h.2.flip hItem
  obtain ⟨_, -, _, hTag, -⟩ := exists_mem_of_forall₂ hKids.flip he
  exact (Markup.Head.fits_of_tag? hTag).values (a.1, a.2.display) (mem_map.mpr ⟨a, ha, rfl⟩)

section Shaped

variable (hShaped : d.Shaped names) (hPlain : d.Plain f) (hNames : ∀ n ∈ names, Clean n)
include hShaped hPlain hNames

theorem Document.Shaped.unquoted (hQuotes : Unquoted d.labels) : Unquoted d.values := by
  intro v hv
  obtain hClean | hLabel := hShaped.clean hPlain hNames hv
  · exact Markup.notMem_of_clean hClean
  · exact hQuotes v hLabel

theorem Document.Shaped.fits (hName : Clean d.name) (hTaken : Taken d.labels) : d.Fits where
  name := isSome_of_eq_some (Markup.taken_of_clean hName)
  values v hv := by
    obtain hClean | hLabel := hShaped.clean hPlain hNames hv
    · exact isSome_of_eq_some (Markup.taken_of_clean hClean)
    · exact hTaken v hLabel
  settings x hx := (hShaped.entries x hx).set

theorem Document.Shaped.wellFormed_iff (hName : Clean d.name) (hQuotes : Unquoted d.labels) :
    WellFormed d.element.text ↔ Taken d.labels := by
  have hLaid := hShaped.laid (hShaped.unquoted hPlain hNames hQuotes) (by decide : ∀ c ∈ "\t".toList, Markup.isSpace c)
  have hRead := Markup.Element.read_laid hLaid
  obtain ⟨blank, s, hText, hBlank, hSound, -⟩ := hLaid
  rw [text_eq_writeContents, Markup.wellFormed_iff_read hText hBlank hSound]
  constructor
  · intro hNone
    obtain ⟨t, hStands, -⟩ := hRead.2 hNone
    exact Document.taken_of_stands hStands
  · exact fun hTaken => hRead.1 (hShaped.fits hPlain hNames hName hTaken)

end Shaped

end Documents

/-- What a document is written with, if the names of materials and images are printable. -/
structure Document.Labelled (f : Forest) (d : Document) : Prop where
  /-- The names in it are the labels of nodes. -/
  labels : ∀ v ∈ d.labels, IsLabel f v
  /-- All other values are read as they are. -/
  values : ∀ v ∈ .text d.name :: d.values, Clean v.display ∨ v ∈ d.labels
  /-- It is well-formed if no label holds a quote, an opening bracket or an ampersand. -/
  wellFormed : (∀ r, (f.node r).kind ∈ labelledKinds → Clean (f.node r).label) → WellFormed d.element.text
  /-- A label without quotes leaves it well-formed just if a reader takes it for something. -/
  wellFormed_iff : Unquoted d.labels → (WellFormed d.element.text ↔ Taken d.labels)

/-- Only the labels of color and number nodes can keep the text of a material from being well-formed. -/
theorem labelled_of_document {f : Forest} {s s' : Session} (hReached : s.Reached f) {m : Option Definition}
    {owned alwaysTwoSided : Bool} {d : Document} (hRun : outcome (document m owned alwaysTwoSided) f s = (.ok d, s'))
    (hImages : ∀ image ∈ s.images, Printed image.name) (hMaterial : ∀ x ∈ m, Printed x.name) : d.Labelled f := by
  have hTitled : s.Titled Clean :=
    ⟨by decide, fun image hImage name hName => clean_of_legal (hImages image hImage) hName⟩
  obtain ⟨_, hStart⟩ := hReached.shaped
  have hFresh := hStart.fresh hTitled
  have hRun' : outcome (document m owned alwaysTwoSided) f { s with expressions := #[] } = (.ok d, s') := hRun
  obtain ⟨names, -, hSession, hShaped⟩ := shaped_of_document hFresh hRun'
  have hPlain := plain_of_document hFresh hRun'
  have hNames := hSession.titles
  have hName : Clean d.name := by
    have hTitle := name_of_document hRun
    cases m with
    | none =>
      obtain hTitle : Mesh.defaultMaterial = d.name := Except.ok.inj hTitle
      rw [← hTitle]
      decide
    | some x => exact clean_of_legal (hMaterial x rfl) hTitle
  refine ⟨fun v hv => hPlain.isLabel hv, ?_, fun hClean => ?_, hShaped.wellFormed_iff hPlain hNames hName⟩
  · exact forall_mem_cons.mpr ⟨.inl hName, fun v hv => hShaped.clean hPlain hNames hv⟩
  · have hLabels (v : Datum) (hv : v ∈ d.labels) : Clean v.display := by
      obtain ⟨r, hKind, rfl, -⟩ := hPlain.isLabel hv
      exact hClean r hKind
    refine (hShaped.wellFormed_iff hPlain hNames hName fun v hv => Markup.notMem_of_clean (hLabels v hv)).mpr fun v hv => ?_
    exact isSome_of_eq_some (Markup.taken_of_clean (hLabels v hv))

section Sample

open SceneExchange.Workload

def lampForest : Forest where
  trees := #[tree [outputNode, node "EMISSION" [sand "Color", half "Strength"] [shader "Emission"],
    labelled "3 < 4" (node "VALUE" [] [half "Value"])] [⟨1, 0, 0, 0⟩, ⟨2, 0, 1, 1⟩]]

/-- The label of the number stands in the text, which is no element for it. -/
theorem labelled_of_lamp : ∃ d s', outcome (document (some (definition "Lamp" 0)) true false) lampForest {} = (.ok d, s') ∧
    d.labels.map Datum.display = ["3 < 4"] ∧ ¬WellFormed d.element.text := by
  have hChecks : (outcome (document (some (definition "Lamp" 0)) true false) lampForest {}).1.toOption.any (fun d =>
      d.labels.map Datum.display == ["3 < 4"] && decide (Unquoted d.labels) && decide (¬Taken d.labels)) = true := by
    decide +kernel
  obtain ⟨d, hRun, hChecks⟩ := exists_of_any_toOption hChecks
  simp only [Bool.and_eq_true, beq_iff_eq, decide_eq_true_eq] at hChecks
  obtain ⟨⟨hLabels, hQuotes⟩, hTaken⟩ := hChecks
  have hReached : Session.Reached lampForest {} := .start ⟨nodup_nil, forall_mem_nil _⟩ rfl rfl rfl
  have hName : ∀ x ∈ some (definition "Lamp" 0), Printed x.name := by
    rintro _ ⟨⟩
    decide +kernel
  have hLabelled := labelled_of_document hReached hRun (by simp) hName
  exact ⟨d, _, hRun, hLabels, mt (hLabelled.wellFormed_iff hQuotes).mp hTaken⟩

end Sample

end SceneExchange.Material
