import SceneExchange.Proofs.References
import SceneExchange.Proofs.Refinement
import SceneExchange.Proofs.Shapes
import SceneExchange.Workload.Materials

/-!
# Materials read back

A material that was written is read again: each expression as one of the same tag, and each of its
inputs with the position and the output that it had. This holds where all parts of expressions are
inputs, and all inputs refer to positions. A mask tells its components in texts that are no inputs,
and so does an expression with code of its own; of these a reader passes over the start only, and
then it stops at the end. An input that refers to a table, not to a position, stops it as well.

Values are written as they are, so a value with a double quote may end its attribute. What is said
here is said of materials without such values.
-/

open List Option Function

namespace SceneExchange

open Markup Markup.Element Text Table

namespace Material

open Markup (Head shown)

/-- Where an input comes from, as numbers. -/
def Source.numbers? (s : Source) : Option Import.Source :=
  s.expression.int?.bind fun e => s.output.int?.map fun o => ⟨e, o⟩

def Part.source? : Part → Option (String × Import.Source)
  | .input name s => s.numbers?.map (name, ·)
  | .text _ => none
  | .element e =>
    match e.name, e.attributes with
    | "Coordinates", [("expression", .int n)] => some ("0", ⟨n, 0⟩)
    | _, _ => none

def Expression.sources (e : Expression) : List (String × Import.Source) := e.parts.filterMap Part.source?

/-- Expressions all of whose parts are inputs, and objects of textures. -/
def Expression.Readable (e : Expression) : Prop := e.tag = "TextureObject" ∨ ∀ p ∈ e.parts, p.source?.isSome

def inputChannels : List String := ["BaseColor", "Roughness", "Metallic", "Normal"]

def Entry.Readable : Entry → Prop
  | .channel name s => name ∈ inputChannels → s.numbers?.isSome
  | .element _ _ => True
  | .text _ => True

instance (e : Expression) : Decidable e.Readable := inferInstanceAs (Decidable (_ ∨ _))

instance (x : Entry) : Decidable x.Readable :=
  match x with
  | .channel name s => inferInstanceAs (Decidable (name ∈ inputChannels → s.numbers?.isSome))
  | .element _ _ => isTrue trivial
  | .text _ => isTrue trivial

def Document.Readable (d : Document) : Prop :=
  (∀ es ∈ d.expressions, ∀ e ∈ es, e.Readable) ∧ ∀ x ∈ d.entries, x.Readable

instance (d : Document) : Decidable d.Readable := inferInstanceAs (Decidable (_ ∧ _))

def Part.values : Part → List Datum
  | .input _ s => [s.expression, s.output]
  | .text _ => []
  | .element e => e.attributes.map Prod.snd

def Expression.values (e : Expression) : List Datum := e.attributes.map Prod.snd ++ e.parts.flatMap Part.values

def Entry.values : Entry → List Datum
  | .channel _ s => [s.expression, s.output]
  | .element _ _ => []
  | .text _ => []

def Document.values (d : Document) : List Datum :=
  (d.expressions.getD []).flatMap Expression.values ++ d.entries.flatMap Entry.values

def Unquoted (vs : List Datum) : Prop := ∀ v ∈ vs, doubleQuote ∉ v.display.toList

instance (vs : List Datum) : Decidable (Unquoted vs) := inferInstanceAs (Decidable (∀ v ∈ vs, _))

/-- Values that a reader takes for something. -/
def Taken (vs : List Datum) : Prop := ∀ v ∈ vs, (taken v.display).isSome

instance (vs : List Datum) : Decidable (Taken vs) := inferInstanceAs (Decidable (∀ v ∈ vs, _))

/-- An expression as it was read has the tag and the inputs that were written. -/
def Recovered (e : Expression) (e' : Import.Expression) : Prop :=
  e'.tag = e.tag ∧ e'.inputs = ofList e.sources

end Material

namespace Material

open Markup (Head shown Spelling isName isSpace namespaceWord Element Content)
open Markup.Element (Laid laid_text laid_leaf laid_inline laid_around)

variable {name : String} {attributes : List (String × Datum)}

/-! ## How materials are written -/

def KeysSound (keys : List String) : Prop := ∀ k ∈ keys, isName k ∧ k.toList ≠ namespaceWord

instance (keys : List String) : Decidable (KeysSound keys) := inferInstanceAs (Decidable (∀ k ∈ keys, _))

/-- The tags of materials other than those of expressions and channels, with the keys of their attributes. -/
def tagKeys : List (String × List String) :=
  [("UEPbrMaterial", ["name"]), ("Expressions", []), ("Texture", ["PathName"]), ("TextureObject", []),
    ("Input", ["name", "type", "val"]), ("Input", ["Name", "expression", "OutputIndex"]), ("Coordinates", ["expression"]),
    ("Prop", ["name", "val", "type"]), ("Include", ["path"]), ("Arg", ["index", "name"]), ("Code", [])]

theorem sound_of_tagKeys : ∀ x ∈ tagKeys, isName x.1 ∧ KeysSound x.2 ∧ x.2.Nodup := by decide +kernel

theorem isName_of_expressionTags : ∀ tag ∈ expressionTags, isName tag := by decide +kernel

theorem keysSound_of_attributeKeys : ∀ keys ∈ attributeKeys, KeysSound keys ∧ keys.Nodup := by decide +kernel

theorem isName_of_bundleKeys : ∀ name ∈ bundleKeys, isName name := by decide +kernel

theorem sound_head {h : Head} (hName : isName h.name) (hKeys : KeysSound (h.attributes.map Prod.fst))
    (hValues : ∀ a ∈ h.attributes, doubleQuote ∉ a.2.toList) : h.Sound where
  name := hName
  keys a ha := hKeys a.1 (mem_map.mpr ⟨a, ha, rfl⟩)
  values := hValues

/-- Values without double quotes, all of which are taken for something where `fits` holds. -/
def Told (fits : Prop) (vs : List Datum) : Prop := Unquoted vs ∧ (fits → Taken vs)

theorem Told.mono {fits : Prop} {vs vs' : List Datum} (h : Told fits vs) (hSub : vs' ⊆ vs) : Told fits vs' :=
  ⟨fun v hv => h.1 v (hSub hv), fun hFits v hv => h.2 hFits v (hSub hv)⟩

theorem told_nil {fits : Prop} : Told fits [] := ⟨forall_mem_nil _, fun _ => forall_mem_nil _⟩

theorem told_shown {fits : Prop} (hName : isName name)
    (hKeys : KeysSound (attributes.map Prod.fst) ∧ (attributes.map Prod.fst).Nodup)
    (hValues : Told fits (attributes.map Prod.snd)) : (Head.mk name (shown attributes)).Told fits := by
  refine ⟨sound_head hName ?_ fun a ha => ?_, fun hFits => ⟨?_, fun a ha => ?_⟩⟩
  · simpa [shown, comp_def] using hKeys.1
  · obtain ⟨b, hb, rfl⟩ := mem_map.mp ha
    exact hValues.1 b.2 (mem_map.mpr ⟨b, hb, rfl⟩)
  · simpa [Head.Distinct, shown, comp_def] using hKeys.2
  · obtain ⟨b, hb, rfl⟩ := mem_map.mp ha
    exact hValues.2 hFits b.2 (mem_map.mpr ⟨b, hb, rfl⟩)

theorem told_tag {fits : Prop} (hKeys : (name, attributes.map Prod.fst) ∈ tagKeys)
    (hValues : Told fits (attributes.map Prod.snd)) : (Head.mk name (shown attributes)).Told fits :=
  told_shown (sound_of_tagKeys _ hKeys).1 (sound_of_tagKeys _ hKeys).2 hValues

def maskHead (text : String) : Head :=
  ⟨"Prop", [("name", String.ofList ((text.toList.drop 12).take 1)), ("val", "True"), ("type", "Bool")]⟩

def Part.head : Part → Head
  | .input name s =>
    ⟨"Input", [("Name", name), ("expression", s.expression.display), ("OutputIndex", s.output.display)]⟩
  | .text t => maskHead t
  | .element e => ⟨e.name, shown e.attributes⟩

theorem toList_inputText (name : String) (s : Source) : (Part.inputText name s).toList =
    "\n\t\t\t\t".toList ++ (Spelling.leaf (Part.input name s).head "").chars := by
  change ("\n\t\t\t\t<Input Name=\"" ++ name ++ "\" expression=\"" ++ s.expression.display ++
    "\" OutputIndex=\"" ++ s.output.display ++ "\"/>").toList = _
  simp [Part.head, Spelling.chars, Head.chars, Head.attributeChars, closing, doubleQuote]

theorem spells_of_maskTexts : ∀ text ∈ maskTexts, text.toList = "".toList ++ (Spelling.leaf (maskHead text) " ").chars ∧
    (∀ a ∈ (maskHead text).attributes, doubleQuote ∉ a.2.toList) ∧
    ∀ a ∈ (maskHead text).attributes, (taken a.2).isSome := by
  decide +kernel

theorem taken_int (n : Int) : taken (toString n) = some (toString n) := by
  refine taken_of_plain fun c hc => .inl ?_
  obtain rfl | hDigit := Number.isDigit_of_mem_toString_int hc
  · decide
  · exact isPlain_of_isDigit hDigit

section Written

variable {fits : Prop} {lead : String}

theorem Part.Shaped.laid {p : Part} (h : p.Shaped) (hTold : Told fits p.values)
    (hLead : ∀ c ∈ lead.toList, isSpace c) : Laid fits lead p.content p.head.Stands := by
  cases h with
  | @input name hName s _ =>
    have hTag := sound_of_tagKeys ("Input", ["Name", "expression", "OutputIndex"]) (by simp [tagKeys])
    obtain ⟨n, hNumeral⟩ := hName.numeral
    have hQuote : doubleQuote ∉ name.toList := hNumeral ▸ notMem_of_clean (clean_toString n)
    have hTaken : (taken name).isSome := by
      rw [hNumeral]
      exact isSome_of_eq_some (taken_int n)
    refine laid_text (toList_inputText name s) (by decide) ⟨sound_head hTag.1 hTag.2.1 ?_, fun h => ⟨hTag.2.2, ?_⟩⟩
      (by decide)
    · simpa [Part.head, Part.values, Unquoted, hQuote] using hTold.1
    · simpa [Part.head, Part.values, Taken, hTaken] using hTold.2 h
  | @mask text hText =>
    have hTag := sound_of_tagKeys ("Prop", ["name", "val", "type"]) (by simp [tagKeys])
    obtain ⟨hSpells, hValues, hTaken⟩ := spells_of_maskTexts text hText
    exact laid_text hSpells (by decide) ⟨sound_head hTag.1 hTag.2.1 hValues, fun _ => ⟨hTag.2.2, hTaken⟩⟩ (by decide)
  | inert hInert =>
    cases hInert with
    | opening => exact laid_leaf hLead (told_tag (by simp [tagKeys]) hTold)
    | argument => exact laid_leaf hLead (told_tag (by simp [tagKeys]) hTold)
    | code hText => exact laid_inline hLead (told_tag (by simp [tagKeys]) hTold) hText
  | coordinates e => exact laid_leaf hLead (told_tag (by simp [tagKeys]) hTold)

theorem isSpace_tab (hLead : ∀ c ∈ lead.toList, isSpace c) : ∀ c ∈ (lead ++ "\t").toList, isSpace c := by
  intro c hc
  rw [String.toList_append, mem_append] at hc
  obtain hc | hc := hc
  · exact hLead c hc
  · revert c
    decide

def Expression.head (e : Expression) : Head := ⟨e.tag, shown e.attributes⟩

def Expression.Stands (e : Expression) : Nat → Import.Element → Prop := e.head.Holds e.parts fun p => p.head.Stands

theorem Expression.Shaped.laid {names : List String} {e : Expression} (h : e.Shaped names) (hTold : Told fits e.values)
    (hLead : ∀ c ∈ lead.toList, isSpace c) : Laid fits lead (.element e.element) e.Stands := by
  have hAttributes : Told fits (e.attributes.map Prod.snd) := hTold.mono (subset_append_left _ _)
  have hParts (p : Part) (hp : p ∈ e.parts) : Told fits p.values :=
    hTold.mono fun v hv => mem_append_right _ (mem_flatMap.mpr ⟨p, hp, hv⟩)
  cases h with
  | @ordinary tag attributes ps hTag hKeys hShaped =>
    refine laid_around hLead (told_shown (isName_of_expressionTags tag hTag)
      (keysSound_of_attributeKeys _ hKeys) hAttributes) fun p hp => ?_
    exact (hShaped p hp).laid (hParts p hp) (isSpace_tab hLead)
  | @texture name ps _ hShaped =>
    refine laid_around hLead (told_tag (by simp [tagKeys]) hAttributes) fun p hp => ?_
    exact (hShaped p hp).laid (hParts p hp) (isSpace_tab hLead)
  | @object name _ =>
    refine laid_around hLead (told_tag (by simp [tagKeys]) hAttributes) fun p hp => ?_
    obtain rfl := mem_singleton.mp hp
    exact laid_leaf (isSpace_tab hLead) (told_tag (by simp [tagKeys]) (hParts _ hp))

def channelHead (name : String) (s : Source) : Head :=
  ⟨name, ("expression", s.expression.display) ::
    if s.output.int? = some 0 then [] else [("OutputIndex", s.output.display)]⟩

theorem toList_settingText (name key value : String) : (settingText name key value).toList =
    "\n\t\t".toList ++ (Spelling.leaf ⟨name, [(key, value)]⟩ "").chars := by
  simp [settingText, Spelling.chars, Head.chars, Head.attributeChars, closing, doubleQuote]

theorem notMem_toString_int (n : Int) : doubleQuote ∉ (toString n).toList :=
  notMem_of_clean (clean_toString_int n)

theorem Innate.cases {d : Datum} (h : Innate d) :
    (∃ n, d = .int n) ∨ (d = .null ∨ d = .shown "\x7b...\x7d" ∨ ∃ entries, d = .dict entries) := by
  obtain ⟨bundles, fuel, visited, o, rfl⟩ := h.eq_datum
  cases o with
  | none => cases fuel <;> simp [Operand.datum]
  | index n => cases fuel <;> simp [Operand.datum]
  | bundle id =>
    cases fuel with
    | zero => simp [Operand.datum]
    | succ fuel =>
      rw [Operand.datum]
      split
      · simp
      · simp [Datum.record]

theorem toList_channelText (name : String) {s : Source} (h : Innate s.output) : (channelText name s).toList =
    "\n\t\t".toList ++ (Spelling.leaf (channelHead name s) "").chars := by
  obtain ⟨expression, output⟩ := s
  have hZero : channelText name ⟨expression, output⟩ = if output.int? = some 0 then
      "\n\t\t<" ++ name ++ " expression=\"" ++ expression.display ++ "\"/>"
      else "\n\t\t<" ++ name ++ " expression=\"" ++ expression.display ++ "\" OutputIndex=\"" ++ output.display ++
        "\"/>" := by
    obtain ⟨n, rfl⟩ | rfl | rfl | ⟨entries, rfl⟩ := h.cases <;> simp [channelText, Datum.int?]
  rw [hZero, channelHead]
  split <;> simp [Spelling.chars, Head.chars, Head.attributeChars, closing, doubleQuote]

def Entry.Stands : Entry → Nat → Import.Element → Prop
  | .channel name s => (channelHead name s).Stands
  | .element name e => (Head.mk name (shown [("expression", .int e), ("OutputIndex", .text "0")])).Stands
  | .text _ => fun place e => ∃ name key value, (name, key) ∈ settingKeys ∧ (Head.mk name [(key, value)]).Stands place e

def Entry.Set : Entry → Prop
  | .text t => ∃ name key value, t = settingText name key value ∧ (name, key) ∈ settingKeys ∧
      doubleQuote ∉ value.toList ∧ (taken value).isSome
  | .channel _ _ => True
  | .element _ _ => True

theorem laid_setting {name key value : String} (hKey : (name, key) ∈ settingKeys) (hQuote : doubleQuote ∉ value.toList)
    (hFits : fits → (taken value).isSome) :
    Laid fits lead (.datum (.text (settingText name key value))) (Entry.text (settingText name key value)).Stands := by
  have hNames : ∀ x ∈ settingKeys, isName x.1 ∧ KeysSound [x.2] := by decide +kernel
  have hSound : (Head.mk name [(key, value)]).Sound :=
    sound_head (hNames _ hKey).1 (hNames _ hKey).2 (by simpa using hQuote)
  exact (laid_text (toList_settingText name key value) (by decide)
    ⟨hSound, fun h => ⟨by simp [Head.Distinct], by simpa using hFits h⟩⟩ (by decide)).imp
      fun place t hStands => ⟨name, key, value, hKey, hStands⟩

theorem Entry.Shaped.laid {x : Entry} (h : x.Shaped) (hTold : Told fits x.values) (hSet : fits → x.Set)
    (hLead : ∀ c ∈ lead.toList, isSpace c) : Laid fits lead x.content x.Stands := by
  have hKeys : KeysSound ["expression", "OutputIndex"] ∧ KeysSound ["expression"] := by decide +kernel
  cases h with
  | @channel name hName s hInnate =>
    refine laid_text (toList_channelText name hInnate.2) (by decide)
      ⟨sound_head (isName_of_bundleKeys name hName) ?_ ?_, fun h => ⟨?_, ?_⟩⟩ (by decide)
    · unfold channelHead
      split
      · exact hKeys.2
      · exact hKeys.1
    · obtain ⟨hExpression, hOutput⟩ : _ ∧ _ := by simpa [Unquoted, Entry.values] using hTold.1
      unfold channelHead
      split
      · simpa using hExpression
      · simpa using ⟨hExpression, hOutput⟩
    · unfold channelHead
      split <;> simp [Head.Distinct]
    · obtain ⟨hExpression, hOutput⟩ : _ ∧ _ := by simpa [Taken, Entry.values] using hTold.2 h
      unfold channelHead
      split
      · simpa using hExpression
      · simpa using ⟨hExpression, hOutput⟩
  | @element name hName e =>
    have hTag : isName name := isName_of_bundleKeys name (mem_append_left _ hName)
    have hValues : Unquoted [.int e, .text "0"] := by
      have hZero : doubleQuote ≠ '0' := by decide
      simpa [Unquoted, hZero] using notMem_toString_int e
    have hTaken : Taken [.int e, .text "0"] := by
      have hZero : (taken "0").isSome := by decide +kernel
      simpa [Taken, hZero] using isSome_of_eq_some (taken_int e)
    exact laid_leaf hLead (told_shown hTag ⟨hKeys.1, by simp⟩ ⟨hValues, fun _ => hTaken⟩)
  | @text t hSetting =>
    by_cases hf : fits
    · obtain ⟨name, key, value, rfl, hKey, hQuote, hTaken⟩ := hSet hf
      exact laid_setting hKey hQuote fun _ => hTaken
    · obtain ⟨name, key, value, rfl, hKey, hClean, -⟩ := hSetting.form
      exact laid_setting hKey (notMem_of_clean hClean) fun h => absurd h hf

inductive Item where
  | expressions (es : List Expression)
  | entry (x : Entry)

def Item.content : Item → Content
  | .expressions es => .element (Expression.list es)
  | .entry x => x.content

def Item.Stands : Item → Nat → Import.Element → Prop
  | .expressions es => (Head.mk "Expressions" []).Holds es Expression.Stands
  | .entry x => x.Stands

def Document.items (d : Document) : List Item := (d.expressions.map Item.expressions).toList ++ d.entries.map .entry

theorem Document.forall_mem_items (d : Document) {P : Item → Prop} : (∀ item ∈ d.items, P item) ↔
    (∀ es ∈ d.expressions, P (.expressions es)) ∧ ∀ x ∈ d.entries, P (.entry x) := by
  rw [Document.items, forall_mem_append, List.forall_mem_map]
  cases d.expressions <;> simp

theorem Document.element_eq (d : Document) :
    d.element = .mk "UEPbrMaterial" [("name", .text d.name)] (d.items.map Item.content) := by
  obtain ⟨name, expressions, entries⟩ := d
  cases expressions <;> simp [Document.element, Document.items, Item.content, comp_def]

def Document.head (d : Document) : Head := ⟨"UEPbrMaterial", shown [("name", .text d.name)]⟩

/-- A material whose values are all taken for something. -/
structure Document.Fits (d : Document) : Prop where
  name : (taken d.name).isSome
  values : Taken d.values
  settings : ∀ x ∈ d.entries, x.Set

theorem Document.Shaped.laid {names : List String} {d : Document} (h : d.Shaped names) (hQuotes : Unquoted d.values)
    (hLead : ∀ c ∈ lead.toList, isSpace c) : Laid d.Fits lead (.element d.element) (d.head.Holds d.items Item.Stands) := by
  rw [Document.element_eq]
  have hName : Told d.Fits [.text d.name] :=
    ⟨by simpa [Unquoted] using h.name, fun hFits => by simpa [Taken] using hFits.name⟩
  have hTold : Told d.Fits d.values := ⟨hQuotes, Document.Fits.values⟩
  refine laid_around hLead (told_tag (by simp [tagKeys]) hName) (d.forall_mem_items.mpr ⟨fun es hes => ?_, fun x hx => ?_⟩)
  · refine laid_around (isSpace_tab hLead) (told_tag (by simp [tagKeys]) told_nil) fun e he => ?_
    refine (h.expressions es hes e he).laid (hTold.mono fun v hv => ?_) (isSpace_tab (isSpace_tab hLead))
    refine mem_append_left _ (mem_flatMap.mpr ⟨e, ?_, hv⟩)
    rw [hes]
    exact he
  · have hValues : x.values ⊆ d.values := fun v hv => mem_append_right _ (mem_flatMap.mpr ⟨x, hx, hv⟩)
    exact (h.entries x hx).laid (hTold.mono hValues) (fun hFits => hFits.settings x hx) (isSpace_tab hLead)

end Written

/-! ## How materials are read -/

theorem Innate.readInteger? {d : Datum} (h : Innate d) {text : String} (hTaken : taken d.display = some text) :
    Number.readInteger? text = d.int? := by
  have hOther {c : Char} (hc : c ∈ ['N', '\x7b']) (hText : ∃ rest, d.display.toList = c :: rest) :
      Number.readInteger? text = none := by
    have hKind : ∀ c ∈ ['N', '\x7b'], isPlain c ∧ Number.isAscii c ∧ isAsciiBlank c = false ∧
        Number.isDigit c = false ∧ c ∉ ['-', '+', '_'] := by decide
    obtain ⟨hPlain, hAscii, hBlank, hDigit, hSign⟩ := hKind c hc
    obtain ⟨rest, hText⟩ := hText
    obtain ⟨more, hMore⟩ := exists_of_taken hText hPlain hTaken
    exact Number.readInteger?_eq_none hMore hAscii hBlank hDigit hSign
  obtain ⟨n, rfl⟩ | rfl | rfl | ⟨entries, rfl⟩ := h.cases
  · rw [Datum.display_int, taken_int] at hTaken
    cases hTaken
    exact Number.readInteger?_toString n
  · exact hOther (by decide : 'N' ∈ _) (by simp [Datum.display, Datum.literal])
  · exact hOther (by decide : '\x7b' ∈ _) (by simp [Datum.display, Datum.literal])
  · exact hOther (by decide : '\x7b' ∈ _) (by simp [Datum.display, Datum.literal])

/-- An answer is there just where it should be, and is then as told. -/
def Answers {α : Type} (good : Prop) (R : α → Prop) (answer : Option α) : Prop :=
  (good → ∃ a, answer = some a ∧ R a) ∧ (¬good → answer = none)

theorem Answers.map {α β : Type} {good : Prop} {R : α → Prop} {S : β → Prop} {answer : Option α} {f : α → β}
    (h : Answers good R answer) (hf : ∀ a, R a → S (f a)) : Answers good S (answer >>= fun a => pure (f a)) := by
  refine ⟨fun hGood => ?_, fun hBad => by rw [h.2 hBad]; rfl⟩
  obtain ⟨a, rfl, ha⟩ := h.1 hGood
  exact ⟨f a, rfl, hf a ha⟩

theorem Answers.imp {α : Type} {good : Prop} {R S : α → Prop} {answer : Option α} (h : Answers good R answer)
    (hImp : ∀ a, R a → S a) : Answers good S answer := by
  simpa using h.map hImp

section Folds

variable {ι σ τ : Type} {f : σ → τ → Option σ} {R : ι → τ → Prop} {items : List ι} {es : List τ}

theorem Answers.foldlM (good : ι → Prop) (inv : List ι → σ → Prop) (h : Forall₂ R items es)
    (hStep : ∀ item e, R item e → ∀ done acc, inv done acc → Answers (good item) (inv (done ++ [item])) (f acc e))
    (done : List ι) {acc : σ} (hStart : inv done acc) :
    Answers (∀ item ∈ items, good item) (inv (done ++ items)) (es.foldlM f acc) := by
  induction h generalizing done acc with
  | nil => exact ⟨fun _ => ⟨acc, rfl, by rwa [append_nil]⟩, fun hNot => absurd (forall_mem_nil _) hNot⟩
  | @cons item e items es hFirst _ ih =>
    obtain ⟨hGood, hBad⟩ := hStep item e hFirst done acc hStart
    rw [foldlM_cons, forall_mem_cons]
    by_cases hItem : good item
    · obtain ⟨acc', hNext, hInv⟩ := hGood hItem
      rw [hNext]
      simpa [hItem] using ih _ hInv
    · rw [hBad hItem]
      exact ⟨fun hAll => absurd hAll.1 hItem, fun _ => rfl⟩

end Folds

open Import (elements)
open Import.Recursive

variable {place : Nat} {e : Import.Element} {s : Source} {names : List String} {d : Document}

def sourceOf? (tag : Markup.Tag) : Option Import.Source := do
  pure ⟨← integer? tag "expression", ← outputIndex? tag⟩

theorem input?_eq (h : elements e.2 = []) (inputs : Table String Import.Source) :
    input? inputs e = (inputKey? e.1).bind fun key => (sourceOf? e.1).map (inputs.insert key) := by
  rw [input?, bare?, h, sourceOf?]
  cases inputKey? e.1 <;> cases integer? e.1 "expression" <;> cases outputIndex? e.1 <;> rfl

theorem sourceOf?_eq {head : Markup.Head} (hTag : head.unified.tag? place = some e.1) (h : s.Innate)
    (hExpression : head.attributes.lookup "expression" = some s.expression.display)
    (hOutput : head.attributes.lookup "OutputIndex" = some s.output.display ∨
      head.attributes.lookup "OutputIndex" = none ∧ s.output = .int 0) : sourceOf? e.1 = s.numbers? := by
  obtain ⟨text, hTaken, hText⟩ := exists_taken hTag hExpression
  have hIndex : outputIndex? e.1 = s.output.int? := by
    rw [outputIndex?]
    obtain hOutput | ⟨hNone, hZero⟩ := hOutput
    · obtain ⟨text', hTaken', hText'⟩ := exists_taken hTag hOutput
      rw [hText']
      exact h.2.readInteger? hTaken'
    · rw [attribute?_of_tag? hTag, hNone, hZero]
      rfl
  rw [sourceOf?, integer?, hText, bind_some, h.1.readInteger? hTaken, hIndex, Source.numbers?]
  cases s.expression.int? <;> cases s.output.int? <;> rfl

/-- An input is entered; no other part of an expression is read. -/
theorem Part.Shaped.read {x : Part} (h : x.Shaped) (hStands : x.head.Stands place e) (known : Import.Expression) :
    expressionPart? known e = x.source?.map fun y => { known with inputs := known.inputs.insert y.1 y.2 } := by
  obtain ⟨hTag, hNone⟩ := hStands
  have hName := (name_of_tag? hTag).1
  rw [expressionPart?]
  cases h with
  | @input name hNumeral s hInnate =>
    have hSource : sourceOf? e.1 = s.numbers? := by
      refine sourceOf?_eq hTag hInnate ?_ (.inl ?_) <;> simp [Part.head, lookup_cons]
    have hKey : e.1.attribute? "Name" = some name := by
      obtain ⟨n, hn⟩ := hNumeral.numeral
      rw [attribute?_of_tag? hTag]
      simpa [Part.head, lookup_cons] using (hn ▸ taken_int n : taken name = some name)
    rw [input?_eq hNone, inputKey?, hName, hSource]
    change ((e.1.attribute? "Name").bind fun key => s.numbers?.map (known.inputs.insert key)).bind _ = _
    rw [hKey, Part.source?]
    cases s.numbers? <;> rfl
  | coordinates n =>
    have hSource : sourceOf? e.1 = (Source.mk (.int n) (.int 0)).numbers? := by
      refine sourceOf?_eq hTag ⟨innate_int n, innate_int 0⟩ ?_ (.inr ⟨?_, rfl⟩) <;>
        simp [Part.head, leaf, attributes, shown]
    rw [input?_eq hNone, inputKey?, hName, hSource]
    rfl
  | mask =>
    rw [hName]
    rfl
  | inert hInert =>
    rw [hName]
    cases hInert <;> rfl

theorem read_parts {x : Expression} (hObject : x.tag ≠ "TextureObject") (h : ∀ p ∈ x.parts, p.Shaped)
    (hStands : x.Stands place e) : Answers x.Readable (Recovered x) (expression? e) := by
  have hName : e.1.name = x.tag := (name_of_tag? hStands.1).1
  rw [expression?, if_neg (by simpa [hName] using hObject), Expression.Readable, or_iff_right hObject]
  refine Answers.foldlM (fun p => p.source?.isSome) (fun done (e' : Import.Expression) => e'.tag = x.tag ∧
    e'.inputs = ofList (done.filterMap Part.source?)) ((forall₂_and_left _ _).mpr ⟨h, hStands.2⟩) ?_ [] ?_
  · rintro p kid ⟨hShaped, k, hKid⟩ done acc ⟨hTag, hInputs⟩
    rw [hShaped.read hKid acc]
    cases hSource : p.source? with
    | none => exact ⟨fun hSome => absurd hSome Bool.false_ne_true, fun _ => rfl⟩
    | some y => exact ⟨fun _ => ⟨_, rfl, hTag, by simp [hInputs, hSource, ofList]⟩, fun hNot => absurd rfl hNot⟩
  · exact ⟨hName, rfl⟩

theorem Expression.Shaped.read {x : Expression} (h : x.Shaped names) (hStands : x.Stands place e) :
    Answers x.Readable (Recovered x) (expression? e) := by
  have hOrdinary : "TextureObject" ∉ expressionTags := by decide +kernel
  cases h with
  | @ordinary tag _ _ hTag _ hParts =>
    refine read_parts ?_ hParts hStands
    rintro rfl
    exact hOrdinary hTag
  | texture _ hParts => exact read_parts (by simp) hParts hStands
  | object _ =>
    have hName : e.1.name = "TextureObject" := (name_of_tag? hStands.1).1
    obtain ⟨kid, _, ⟨k, -, hNone⟩, hRest, hElements⟩ := forall₂_cons_left_iff.mp hStands.2
    cases hRest
    refine ⟨fun _ => ⟨{ tag := "TextureObject", attributes := kid.1.attributes }, ?_, rfl, rfl⟩,
      fun hNot => absurd (.inl rfl) hNot⟩
    simp [expression?, hName, textureObject?, hElements, bare?, hNone]

theorem read_expressions {es : List Expression} (h : ∀ x ∈ es, x.Shaped names)
    (hKids : Forall₂ (fun x kid => ∃ k, Expression.Stands x k kid) es (elements e.2)) :
    Answers (∀ x ∈ es, x.Readable) (Forall₂ Recovered es) (expressions? e.2) := by
  have hFold := Answers.foldlM (f := fun as e => do pure (as ++ [← expression? e])) Expression.Readable (Forall₂ Recovered)
    ((forall₂_and_left _ _).mpr ⟨h, hKids⟩) ?_ [] .nil
  · rw [Import.Importing.foldlM_append] at hFold
    simpa [expressions?] using hFold
  · rintro x kid ⟨hShaped, k, hKid⟩ done acc hDone
    exact (hShaped.read hKid).map fun e' he' => rel_append hDone (.cons he' .nil)

theorem shaderPart?_other (h : e.1.name ∉ ["Expressions", "ShadingModel", "Input"] ++ inputChannels)
    (known : Import.Material × Table String Import.Source) : shaderPart? known e = some known := by
  simp only [inputChannels, cons_append, nil_append, mem_cons, not_mem_nil, or_false, not_or] at h
  unfold shaderPart?
  split <;> simp_all

/-- What is read of an entry: its input if it is a channel that is read, and nothing that the expressions depend on. -/
def Entry.Read (x : Entry) (e : Import.Element) : Prop :=
  ∀ known, Answers x.Readable (fun k => k.1.fields.get? "expressions" = known.1.fields.get? "expressions")
    (shaderPart? known e)

theorem read_channel (hName : name ∈ bundleKeys) (hSame : e.1.name = name) (hNone : elements e.2 = [])
    (hSource : sourceOf? e.1 = s.numbers?) : (Entry.channel name s).Read e := by
  intro known
  by_cases hInput : name ∈ inputChannels
  · have hPart : shaderPart? known e = s.numbers?.map fun y => (known.1, known.2.insert name y) := by
      have hNames : name = "BaseColor" ∨ name = "Roughness" ∨ name = "Metallic" ∨ name = "Normal" := by
        simpa [inputChannels] using hInput
      rw [shaderPart?, input?_eq hNone, inputKey?, hSource, hSame]
      obtain rfl | rfl | rfl | rfl := hNames <;> cases s.numbers? <;> rfl
    rw [hPart]
    cases hNumbers : s.numbers? with
    | some y => exact ⟨fun _ => ⟨_, rfl, rfl⟩, fun hNot => absurd (fun _ => by rw [hNumbers]; rfl) hNot⟩
    | none => exact ⟨fun hReadable => by simp [Entry.Readable, hInput, hNumbers] at hReadable, fun _ => rfl⟩
  · have hOther : ∀ name ∈ bundleKeys, name ∉ inputChannels →
      name ∉ ["Expressions", "ShadingModel", "Input"] ++ inputChannels := by
      decide +kernel
    exact ⟨fun _ => ⟨known, shaderPart?_other (hSame ▸ hOther name hName hInput) known, rfl⟩,
      fun hNot => absurd (fun hMem => absurd hMem hInput) hNot⟩

theorem lookup_channelHead (name : String) (s : Source) :
    (channelHead name s).attributes.lookup "expression" = some s.expression.display ∧
    ((channelHead name s).attributes.lookup "OutputIndex" = some s.output.display ∨
      (channelHead name s).attributes.lookup "OutputIndex" = none ∧ s.output = .int 0) := by
  by_cases hZero : s.output.int? = some 0
  · have hOutput : s.output = .int 0 := mem_int?.mp (mem_toList.mpr hZero)
    simp [channelHead, hOutput, Datum.int?]
  · simp [channelHead, hZero, lookup_cons]

theorem Entry.Shaped.read {x : Entry} (h : x.Shaped) (hStands : x.Stands place e) : x.Read e := by
  cases h with
  | @channel name hName s hInnate =>
    obtain ⟨hExpression, hOutput⟩ := lookup_channelHead name s
    exact read_channel hName (name_of_tag? hStands.1).1 hStands.2 (sourceOf?_eq hStands.1 hInnate hExpression hOutput)
  | @element name hName n =>
    have hSource : sourceOf? e.1 = (Source.mk (.int n) (.int 0)).numbers? := by
      refine sourceOf?_eq hStands.1 ⟨innate_int n, innate_int 0⟩ ?_ (.inl ?_)
      · simp [shown]
      · rw [(by decide : (Datum.int 0).display = "0")]
        simp [shown, lookup_cons]
    refine fun known => ⟨fun _ => ?_, fun hNot => absurd trivial hNot⟩
    exact (read_channel (mem_append_left _ hName) (name_of_tag? hStands.1).1 hStands.2 hSource known).1 fun _ => rfl
  | text hSetting =>
    obtain ⟨name, key, value, hKey, hTag, hNone⟩ := hStands
    have hSame : e.1.name = name := (name_of_tag? hTag).1
    refine fun known => ⟨fun _ => ?_, fun hNot => absurd trivial hNot⟩
    by_cases hModel : name = "ShadingModel"
    · subst hModel
      obtain rfl : key = "value" := by simpa [settingKeys] using hKey
      obtain ⟨text, -, hText⟩ := exists_taken hTag (by simp : List.lookup "value" [("value", value)] = some value)
      refine ⟨(known.1.set "ShadingModel" (.text text), known.2), ?_, get?_insert_of_ne _ (by decide) _⟩
      simp [shaderPart?, hSame, bare?, hNone, hText]
    · have hOther : ∀ x ∈ settingKeys, x.1 ≠ "ShadingModel" →
        x.1 ∉ ["Expressions", "ShadingModel", "Input"] ++ inputChannels := by
        decide +kernel
      exact ⟨known, shaderPart?_other (hSame ▸ hOther _ hKey hModel) known, rfl⟩

/-! ## Materials as a whole -/

def Item.Readable : Item → Prop
  | .expressions es => ∀ e ∈ es, e.Readable
  | .entry x => x.Readable

def Item.Shaped (names : List String) : Item → Prop
  | .expressions es => ∀ e ∈ es, e.Shaped names
  | .entry x => x.Shaped

def Item.expressions? : Item → Option (List Expression)
  | .expressions es => some es
  | .entry _ => none

/-- A material as it was read has the expressions that were written, if there were any. -/
def Recovers (expressions : Option (List Expression)) (m : Import.Material) : Prop :=
  match expressions with
  | none => m.fields.get? "expressions" = none
  | some es => ∃ es', m.fields.get? "expressions" = some (.expressions es') ∧ Forall₂ Recovered es es'

theorem Recovers.of_eq {expressions : Option (List Expression)} {m m' : Import.Material} (h : Recovers expressions m)
    (hSame : m'.fields.get? "expressions" = m.fields.get? "expressions") : Recovers expressions m' := by
  cases expressions with
  | none => exact hSame.trans h
  | some es =>
    obtain ⟨es', hGet, hRecovered⟩ := h
    exact ⟨es', hSame.trans hGet, hRecovered⟩

theorem Item.Shaped.read {item : Item} (h : item.Shaped names) (hStands : item.Stands place e)
    (known : Import.Material × Table String Import.Source) : Answers item.Readable
      (fun k => ∀ before, Recovers before known.1 → Recovers (item.expressions?.or before) k.1) (shaderPart? known e) := by
  cases item with
  | expressions es =>
    rw [shaderPart?, (name_of_tag? hStands.1).1]
    exact (read_expressions h hStands.2).map fun es' hRecovered _ _ => ⟨es', get?_insert_self _ _ _, hRecovered⟩
  | entry x => exact (Entry.Shaped.read h hStands known).imp fun k hSame before hBefore => hBefore.of_eq hSame

theorem Document.getLast?_items (d : Document) : (d.items.filterMap Item.expressions?).getLast? = d.expressions := by
  obtain ⟨name, expressions, entries⟩ := d
  cases expressions <;> simp [Document.items, filterMap_map, comp_def, Item.expressions?]

theorem Document.Shaped.answers (h : d.Shaped names) (hStands : d.head.Holds d.items Item.Stands place e) :
    Answers d.Readable (fun x => Recovers d.expressions x.2) (shaderMaterial? e) := by
  obtain ⟨name, -, hName⟩ := exists_taken hStands.1 (by simp [Document.head, shown] :
    d.head.attributes.lookup "name" = some d.name)
  have hItems : ∀ item ∈ d.items, item.Shaped names := d.forall_mem_items.mpr ⟨h.expressions, h.entries⟩
  have hReadable : (∀ item ∈ d.items, item.Readable) ↔ d.Readable := d.forall_mem_items
  rw [shaderMaterial?, hName, ← hReadable]
  let inv (done : List Item) (acc : Import.Material × Table String Import.Source) : Prop :=
    Recovers (done.filterMap Item.expressions?).getLast? acc.1
  have hStart : inv [] (Import.Material.ofTag e.1.name name, empty) := rfl
  have hFold := Answers.foldlM (f := shaderPart?) Item.Readable inv ((forall₂_and_left _ _).mpr ⟨hItems, hStands.2⟩) ?_
    [] hStart
  · refine hFold.map fun acc hRecovers => ?_
    rw [← d.getLast?_items]
    exact Recovers.of_eq hRecovers (get?_insert_of_ne _ (by decide) _)
  · rintro item kid ⟨hShaped, k, hKid⟩ done acc hDone
    refine (hShaped.read hKid acc).imp fun next hRecovers => ?_
    have hLast : ((done ++ [item]).filterMap Item.expressions?).getLast? =
        item.expressions?.or (done.filterMap Item.expressions?).getLast? := by
      rw [filterMap_append, getLast?_append]
      cases hItem : item.expressions? <;> simp [hItem]
    unfold inv
    rw [hLast]
    exact hRecovers _ hDone

theorem text_eq_writeContents (e : Markup.Element) : e.text = writeContents "\t" [.element e] := by
  simp [text, textUnder, writeContents]

theorem Document.Shaped.wellFormed (h : d.Shaped names) (hQuotes : Unquoted d.values) (hFits : d.Fits) :
    (read d.element.text).2 = none := by
  rw [text_eq_writeContents]
  exact (read_laid (h.laid hQuotes (by decide : ∀ c ∈ "\t".toList, isSpace c))).1 hFits

open Import (Mark)
open Import.Importing

open SceneExchange.Graph in
/-- A written material is read back just if each part of its expressions is an input, and each input refers to a position. -/
theorem read_back_of_readable {f : Forest} {s s' : Session} (hReached : s.Reached f) {m : Option Definition}
    {owned alwaysTwoSided : Bool} {d : Document} (hRun : outcome (document m owned alwaysTwoSided) f s = (.ok d, s'))
    (hQuotes : Unquoted d.values) (hRead : (read d.element.text).2 = none) :
    ∃ tag ms, (read d.element.text).1.filterMap Mark.ofEvent? = ⟨false, tag⟩ :: ms ∧ tag.name = "UEPbrMaterial" ∧
      ∀ p, (d.Readable → ∃ name m, Recovers d.expressions m ∧ ∀ s rest, s.marks = ms ++ rest →
        ∃ log, result (shaderMaterial tag) p s = (.ok (), { s with
          marks := rest, log := log, parts := { s.parts with materials := s.parts.materials.insert name m } })) ∧
      (¬d.Readable → Fails p ms (shaderMaterial tag)) := by
  obtain ⟨names, hShaped⟩ := hReached.shaped
  obtain ⟨names', -, -, hDocument⟩ := shaped_of_document hShaped hRun
  have hLaid := hDocument.laid hQuotes (by decide : ∀ c ∈ "\t".toList, isSpace c)
  rw [text_eq_writeContents] at hRead ⊢
  obtain ⟨e, hStands, hDistinct, hEvents⟩ := (read_laid hLaid).2 hRead
  obtain ⟨hGood, hBad⟩ := hDocument.answers hStands
  rw [Import.marks_element] at hDistinct
  have hFollows (p : Import.Place) (s : Import.State) (rest : List Mark)
      (hMarks : s.marks = Import.marksOf e.2 ++ [⟨true, e.1⟩] ++ rest) :=
    scans_shaderMaterial (p := p) e hDistinct rest s (hMarks.trans (append_assoc _ _ _))
  refine ⟨e.1, _, (congrArg _ hEvents).trans (Import.marks_element e.1 e.2), (name_of_tag? hStands.1).1, fun p =>
    ⟨fun hReadable => ?_, fun hNot => ?_⟩⟩
  · obtain ⟨⟨name, m⟩, hm, hRecovers⟩ := hGood hReadable
    rw [hm] at hFollows
    exact ⟨name, m, hRecovers, hFollows p⟩
  · rw [hBad hNot] at hFollows
    exact hFollows p

section Sample

open SceneExchange.Workload SceneExchange.Graph

def Entry.isChannel : Entry → Bool
  | .channel _ _ => true
  | _ => false

theorem Entry.set_of_isChannel {x : Entry} (h : x.isChannel) : x.Set := by
  cases x with
  | channel => trivial
  | element => trivial
  | text => cases h

theorem exists_of_any_toOption {α β γ : Type} {x : Except α β × γ} {check : β → Bool} (h : x.1.toOption.any check = true) :
    ∃ b, x = (.ok b, x.2) ∧ check b = true := by
  obtain ⟨r, y⟩ := x
  cases r with
  | error e => cases h
  | ok b => exact ⟨b, rfl, h⟩

/-- A surface that shines in the color of its corners, as bright as the alpha there. -/
def glowForest : Forest where
  trees := #[tree [outputNode, node "EMISSION" [sand "Color", half "Strength"] [shader "Emission"],
    node "VERTEX_COLOR" [] [sand "Color", half "Alpha"]] [⟨1, 0, 0, 0⟩, ⟨2, 0, 1, 0⟩, ⟨2, 1, 1, 1⟩]]

/-- The product that the surface shines in, and the color and the alpha that it is made of. -/
def glowExpressions : List Expression :=
  [⟨"VertexColor", [], []⟩, ⟨"AppendVector", [], [.input "0" ⟨.int 0, .int 0⟩, .input "1" ⟨.int 0, .int 4⟩]⟩,
    ⟨"VertexColor", [], []⟩,
    ⟨"Multiply", [], [.input "0" ⟨.int 1, .int 0⟩, .input "1" ⟨.int 2, .int 4⟩]⟩]

theorem read_back_of_glow : ∃ d s', outcome (document (some (definition "Glow" 0)) true false) glowForest {} = (.ok d, s') ∧
    (d.expressions.getD []).map (fun e => (e.tag, e.sources)) = glowExpressions.map (fun e => (e.tag, e.sources)) ∧
    ∃ tag ms, (read d.element.text).1.filterMap Mark.ofEvent? = ⟨false, tag⟩ :: ms ∧
      ∀ p, ∃ name m, Recovers d.expressions m ∧ ∀ s, s.marks = ms → ∃ log, result (shaderMaterial tag) p s =
        (.ok (), { s with
          marks := [], log := log, parts := { s.parts with materials := s.parts.materials.insert name m } }) := by
  have hChecks : (outcome (document (some (definition "Glow" 0)) true false) glowForest {}).1.toOption.any (fun d =>
      (d.expressions.getD []).map (fun e => (e.tag, e.sources)) == glowExpressions.map (fun e => (e.tag, e.sources)) &&
      (decide (Unquoted d.values) && decide d.Readable && (taken d.name).isSome && decide (Taken d.values) &&
        d.entries.all Entry.isChannel)) = true := by
    decide +kernel
  obtain ⟨d, hRun, hChecks⟩ := exists_of_any_toOption hChecks
  simp only [Bool.and_eq_true, beq_iff_eq, decide_eq_true_eq] at hChecks
  obtain ⟨hExpressions, ⟨⟨⟨hQuotes, hReadable⟩, hName⟩, hTaken⟩, hEntries⟩ := hChecks
  have hReached : Session.Reached glowForest {} := .start ⟨nodup_nil, forall_mem_nil _⟩ rfl rfl rfl
  have hRead : (read d.element.text).2 = none := by
    obtain ⟨names, hShaped⟩ := hReached.shaped
    obtain ⟨names', -, -, hDocument⟩ := shaped_of_document hShaped hRun
    refine hDocument.wellFormed hQuotes ⟨hName, hTaken, fun x hx => ?_⟩
    exact Entry.set_of_isChannel (all_eq_true.mp hEntries x hx)
  obtain ⟨tag, ms, hMarks, -, hTakes⟩ := read_back_of_readable hReached hRun hQuotes hRead
  refine ⟨d, _, hRun, hExpressions, tag, ms, hMarks, fun p => ?_⟩
  obtain ⟨name, m, hRecovers, hMaterial⟩ := (hTakes p).1 hReadable
  refine ⟨name, m, hRecovers, fun s hStart => hMaterial s [] ?_⟩
  rw [hStart, append_nil]

end Sample

end Material

end SceneExchange
