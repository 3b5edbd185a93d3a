import SceneExchange.Material.Document
import SceneExchange.Proofs.Rows
import SceneExchange.Proofs.Simulation

/-!
# Steps that emit expressions, side by side

A vocabulary names what two runs know of positions, operands and sources. An emission is a
vocabulary in which the basic steps agree: writing to the log, emitting an expression, and reading
and writing bundles. The larger steps are made of these, so they agree in every emission.

Calls that look a value up in the curve texture are left out: the number of a row need not be the
same in both runs, so such a call is a step of its own.

The tables of a session, its contexts and its groups are left to later modules.
-/

open List

namespace SceneExchange.Markup

mutual

/-- The values of an attribute in an element and in all elements below it. -/
def Element.valuesOf (key : String) : Element → List Datum
  | .mk _ attributes children =>
    (attributes.filter (·.1 == key)).map (·.2) ++ contentValues key children

def contentValues (key : String) : List Content → List Datum
  | [] => []
  | .element e :: rest => Element.valuesOf key e ++ contentValues key rest
  | .datum _ :: rest => contentValues key rest

end

end SceneExchange.Markup

namespace SceneExchange.Material

open SceneExchange.Graph Compile Material.Frame
open Markup (Clean)

variable {key text : String} {f : Forest} {items : List Datum}

/-- An element of a custom expression: it refers to no expression and to no texture. -/
inductive Inert : Markup.Element → Prop
  | opening {path : String} (h : Clean path) : Inert (.leaf "Include" [("path", .text path)])
  | argument (index : Int) {name : String} (h : Clean name) :
      Inert (.leaf "Arg" [("index", .int index), ("name", .text name)])
  | code {text : String} (h : ∀ c ∈ text.toList, Markup.isProse c) : Inert (.mk "Code" [] [.datum (.text text)])

theorem Inert.valuesOf {e : Markup.Element} (h : Inert e) (hKey : key ∉ ["path", "index", "name"]) :
    e.valuesOf key = [] := by
  simp only [mem_cons, not_mem_nil, or_false, not_or] at hKey
  obtain ⟨hPath, hIndex, hName⟩ := hKey
  cases h <;> simp [Markup.Element.valuesOf, Markup.contentValues, Markup.Element.leaf, Ne.symm hPath,
    Ne.symm hIndex, Ne.symm hName]

def maskTexts : List String :=
  ["<Prop name=\"R\" val=\"True\" type=\"Bool\" />", "<Prop name=\"G\" val=\"True\" type=\"Bool\" />",
    "<Prop name=\"B\" val=\"True\" type=\"Bool\" />"]

class MaskText (text : String) : Prop where
  mem : text ∈ maskTexts

instance : MaskText "<Prop name=\"R\" val=\"True\" type=\"Bool\" />" := ⟨by decide⟩
instance : MaskText "<Prop name=\"G\" val=\"True\" type=\"Bool\" />" := ⟨by decide⟩
instance : MaskText "<Prop name=\"B\" val=\"True\" type=\"Bool\" />" := ⟨by decide⟩

class InputName (name : String) : Prop where
  numeral : ∃ n : Nat, name = toString n

instance (n : Nat) : InputName (toString n) := ⟨n, rfl⟩
instance : InputName "0" := ⟨0, rfl⟩
instance : InputName "1" := ⟨1, rfl⟩
instance : InputName "2" := ⟨2, rfl⟩
instance : InputName "3" := ⟨3, rfl⟩
instance : InputName "4" := ⟨4, rfl⟩
instance : InputName "5" := ⟨5, rfl⟩
instance : InputName "6" := ⟨6, rfl⟩
instance : InputName "7" := ⟨7, rfl⟩
instance : InputName "8" := ⟨8, rfl⟩
instance : InputName "9" := ⟨9, rfl⟩
instance : InputName "10" := ⟨10, rfl⟩
instance : InputName "11" := ⟨11, rfl⟩
instance : InputName "12" := ⟨12, rfl⟩
instance : InputName "13" := ⟨13, rfl⟩

class InputNames (fields : List (String × String)) : Prop where
  names : ∀ x ∈ fields, InputName x.1

instance : InputNames [] := ⟨forall_mem_nil _⟩

instance {name field : String} {fields : List (String × String)} [h : InputName name] [h' : InputNames fields] :
    InputNames ((name, field) :: fields) :=
  ⟨forall_mem_cons.mpr ⟨h, h'.names⟩⟩

class OutputNumber (k : Int) : Prop where
  nonneg : 0 ≤ k

instance (n : Nat) : OutputNumber n := ⟨Int.natCast_nonneg n⟩
instance : OutputNumber 0 := ⟨by decide⟩
instance : OutputNumber 1 := ⟨by decide⟩
instance : OutputNumber 4 := ⟨by decide⟩
instance : OutputNumber 5 := ⟨by decide⟩

abbrev textureInput (name : String) : Part :=
  .element (.leaf "Input" [("name", .text "Texture"), ("type", .text "Texture"), ("val", .text name)])

structure Vocabulary extends Frame where
  position : Int → toFrame.Fact
  value : Operand → toFrame.Fact
  shader : Operand → toFrame.Fact
  rough : Operand → toFrame.Fact
  source : Source → toFrame.Fact
  texture : String → toFrame.Fact
  Channel : String → Prop

namespace Vocabulary

variable (V : Vocabulary)

inductive PartHolds (w : V.World) : Part → Prop
  | input {name : String} (hName : InputName name) {s : Source} (h : (V.source s).holds w) :
      PartHolds w (.input name s)
  | text {t : String} (h : t ∈ maskTexts) : PartHolds w (.text t)
  | element {e : Markup.Element} (h : Inert e) : PartHolds w (.element e)
  | coordinates {e : Int} (h : (V.position e).holds w) :
      PartHolds w (.element (.leaf "Coordinates" [("expression", .int e)]))

def part (p : Part) : V.Fact where
  holds w := V.PartHolds w p
  stable hw h := by
    cases h with
    | input hName h => exact .input hName ((V.source _).stable hw h)
    | text h => exact .text h
    | element h => exact .element h
    | coordinates h => exact .coordinates ((V.position _).stable hw h)

abbrev parts (ps : List Part) : V.Fact := .each V.part ps

def channel (e : String × Operand) : V.Fact :=
  (Fact.pure (V.Channel e.1)).and (V.value e.2)

abbrev channels (es : List (String × Operand)) : V.Fact := .each V.channel es

def operand (kind : SocketKind) (o : Operand) : V.Fact where
  holds w := (V.value o).holds w ∧ (kind = .shader → (V.shader o).holds w)
  stable hw h := ⟨(V.value o).stable hw h.1, fun hKind => (V.shader o).stable hw (h.2 hKind)⟩

/-- What is given for a socket of one kind; a handler gives shaders for shader sockets. -/
def given (handled : Prop) (kind : SocketKind) (o : Operand) : V.Fact where
  holds w := (V.value o).holds w ∧ (kind = .shader → (V.rough o).holds w ∧ (handled → (V.shader o).holds w))
  stable hw h := by
    refine ⟨(V.value o).stable hw h.1, fun hKind => ?_⟩
    obtain ⟨hRough, hShader⟩ := h.2 hKind
    exact ⟨(V.rough o).stable hw hRough, fun hHandled => (V.shader o).stable hw (hShader hHandled)⟩

def absent (b : Bool) (o : Operand) : V.Fact where
  holds w := b = false → (V.shader o).holds w
  stable hw h hb := (V.shader o).stable hw (h hb)

end Vocabulary

def channelNames : List String :=
  ["BaseColor", "Metallic", "Roughness", "Specular", "Opacity", "EmissiveColor", "ClearCoat",
    "ClearCoatRoughness", "Refraction", "Normal"]

/-- The functions of the content library that look a value up in the curve texture. -/
def lookUpNames : List String := ["ColorRamp", "RGBCurveLookup2"]

def lookUps : List String := lookUpNames.map Function.content

def expressionTags : List String :=
  ["FunctionCall", "Custom", "Color", "Scalar", "TextureCoordinate", "Add", "AppendVector", "BlackBody", "Clamp",
    "ComponentMask", "Distance", "Divide", "DotProduct", "If", "LinearInterpolate", "Logarithm2", "Max", "Min", "Multiply",
    "OneMinus", "PerInstanceRandom", "Power", "ReflectionVectorWS", "Saturate", "VertexColor", "VertexNormalWS",
    "VertexTangentWS"] ++
  Function.binaryMath.map (·.2) ++ Function.unaryMath.map (·.2) ++ Function.vectorMath.map (·.2.2)

/-- The lists of keys that expressions other than textures have their attributes under. -/
def attributeKeys : List (List String) :=
  [[], ["Function"], ["constant"], ["constant", "Name"], ["Description", "OutputType"], ["Index", "UTiling", "VTiling"]]

def labelledKinds : List String := ["RGB", "VALUE"]

/-- The label of a node that is written with it. -/
def IsLabel (f : Forest) (d : Datum) : Prop :=
  ∃ r, (f.node r).kind ∈ labelledKinds ∧ d = .text (f.node r).label ∧ d.holds

/-- An attribute that is the label of a node if it is a name, and whose value is read as it is otherwise. -/
structure Plain (f : Forest) (a : String × Datum) : Prop where
  label : a.1 = "Name" → IsLabel f a.2
  clean : a.1 ≠ "Name" → Clean a.2.display

theorem plain_of_clean {v : Datum} (hKey : key ≠ "Name") (h : Clean v.display) : Plain f (key, v) :=
  ⟨fun hName => absurd hName hKey, fun _ => h⟩

theorem plain_text (hKey : key ≠ "Name") (h : Clean text) : Plain f (key, .text text) :=
  plain_of_clean hKey h

theorem plain_of_label {v : Datum} (h : IsLabel f v) : Plain f ("Name", v) :=
  ⟨fun _ => h, fun hOther => absurd rfl hOther⟩

/-- Tags and attributes of expressions that look up no value in the curve texture and name no texture. -/
structure Ordinary (f : Forest) (tag : String) (attributes : List (String × Datum)) : Prop where
  tag : tag ∈ expressionTags
  keys : attributes.map Prod.fst ∈ attributeKeys
  values : ∀ a ∈ attributes, Plain f a
  notLookUp : ∀ path ∈ lookUps, attributes ≠ [("Function", .text path)]

structure IsPath (path : String) : Prop where
  notLookUp : path ∉ lookUps
  clean : Clean path

theorem isPath_content {name : String} (h : name ∉ lookUpNames ∧ Clean name) : IsPath (Function.content name) where
  notLookUp hMem := by
    obtain ⟨other, hOther, hSame⟩ := mem_map.mp hMem
    obtain rfl := (String.append_right_inj _).mp hSame
    exact h.1 hOther
  clean := Markup.clean_append (by decide +kernel) h.2

theorem isPath_makeFloat3 : IsPath Function.makeFloat3 := ⟨by decide +kernel, by decide +kernel⟩

theorem isPath_breakFloat3 : IsPath Function.breakFloat3 := ⟨by decide +kernel, by decide +kernel⟩

theorem isPath_ditherTemporal : IsPath Function.ditherTemporal := ⟨by decide +kernel, by decide +kernel⟩

theorem isPath_cons {name : String} {rest : Function.Choices} (h : name ∉ lookUpNames ∧ Clean name)
    (hRest : ∀ x ∈ rest, IsPath x.2) : ∀ x ∈ (key, Function.content name) :: rest, IsPath x.2 :=
  forall_mem_cons.mpr ⟨isPath_content h, hRest⟩

theorem isPath_mappings : ∀ x ∈ Function.mappings, IsPath x.2 :=
  isPath_cons (by decide) (isPath_cons (by decide) (isPath_cons (by decide) (isPath_cons (by decide)
    (forall_mem_nil _))))

section Ordinary

variable {f : Forest}

theorem ordinary_call {path : String} (h : IsPath path) : Ordinary f "FunctionCall" [("Function", .text path)] := by
  refine ⟨by decide, by simp [attributeKeys], by simpa using plain_text (by decide) h.clean, ?_⟩
  rintro path hPath ⟨⟩
  exact h.notLookUp hPath

theorem ordinary_of_keys {tag : String} {attributes : List (String × Datum)} (hTag : tag ∈ expressionTags)
    (hKeys : attributes.map Prod.fst ∈ attributeKeys) (hFunction : "Function" ∉ attributes.map Prod.fst)
    (hValues : ∀ a ∈ attributes, Plain f a) : Ordinary f tag attributes := by
  refine ⟨hTag, hKeys, hValues, ?_⟩
  rintro path - rfl
  simp at hFunction

theorem ordinary_plain {tag : String} (hTag : tag ∈ expressionTags) : Ordinary f tag [] :=
  ordinary_of_keys hTag (by simp [attributeKeys]) (by simp) (forall_mem_nil _)

theorem ordinary_constant {tag text : String} (hTag : tag ∈ expressionTags) (hText : Clean text) :
    Ordinary f tag ([("constant", .text text)] ++ []) :=
  ordinary_of_keys hTag (by simp [attributeKeys]) (by simp) (by simpa using plain_text (by decide) hText)

theorem ordinary_named {tag text : String} {name : Datum} (hTag : tag ∈ expressionTags) (hText : Clean text)
    (hName : IsLabel f name) : Ordinary f tag ([("constant", .text text)] ++ [("Name", name)]) :=
  ordinary_of_keys hTag (by simp [attributeKeys]) (by simp)
    (by simpa using ⟨plain_text (by decide) hText, plain_of_label hName⟩)

theorem ordinary_content {name : String} (h : name ∉ lookUpNames ∧ Clean name) :
    Ordinary f "FunctionCall" [("Function", .text (Function.content name))] :=
  ordinary_call (isPath_content h)

theorem head?_append {first rest : String} {c : Char} (h : first.toList.head? = some c) :
    (first ++ rest).toList.head? = some c := by
  rw [String.toList_append, List.head?_append, h]
  rfl

theorem ordinary_of_head {name : String} (c : Char) (h : name.toList.head? = some c) (hClean : Clean name)
    (hOther : ∀ n ∈ lookUpNames, n.toList.head? ≠ some c) :
    Ordinary f "FunctionCall" [("Function", .text (Function.content name))] :=
  ordinary_content ⟨fun hMem => hOther name hMem h, hClean⟩

end Ordinary

/-! ### Texts of numbers -/

theorem clean_of_sixPlaces {d : Datum} (h : sixPlaces d = .ok text) : Clean text := by
  unfold sixPlaces at h
  split at h
  · exact Except.ok.inj h ▸ Markup.clean_six _
  · exact Except.ok.inj h ▸ Markup.clean_six _
  · split at h
    · exact Except.ok.inj h ▸ Markup.clean_six _
    · cases h
  · cases h

theorem clean_of_sixPlacesEach {n : Nat} {texts : List String} (h : sixPlacesEach n items = .ok texts) :
    ∀ text ∈ texts, Clean text := by
  induction n generalizing items texts with
  | zero =>
    cases items <;> cases h
    exact forall_mem_nil _
  | succ n ih =>
    cases items with
    | nil => cases h
    | cons d rest =>
      obtain ⟨first, hFirst, h⟩ := bind_eq_ok.mp h
      obtain ⟨others, hOthers, ⟨⟩⟩ := bind_eq_ok.mp h
      exact forall_mem_cons.mpr ⟨clean_of_sixPlaces hFirst, ih hOthers⟩

theorem clean_join {texts : List String} (h : ∀ text ∈ texts, Clean text) : Clean (String.join texts) := by
  intro c hc
  rw [String.toList_join, mem_flatMap] at hc
  obtain ⟨text, hText, hc⟩ := hc
  exact h text hText c hc

theorem clean_of_scalarText {v : SocketValue} (h : scalarText v = .ok text) : Clean text := by
  unfold scalarText at h
  split at h
  · exact clean_of_sixPlaces h
  · obtain ⟨texts, hEach, ⟨⟩⟩ := bind_eq_ok.mp h
    exact clean_join (clean_of_sixPlacesEach hEach)
  all_goals cases h

theorem clean_of_vectorText (h : vectorText items = .ok text) : Clean text := by
  obtain ⟨texts, hEach, h⟩ := bind_eq_ok.mp h
  have hTexts := clean_of_sixPlacesEach hEach
  split at h <;> cases h
  · simp only [mem_cons, not_mem_nil, or_false, forall_eq_or_imp, forall_eq] at hTexts
    obtain ⟨hr, hg, hb⟩ := hTexts
    repeat' apply Markup.clean_append
    all_goals first | assumption | decide
  · decide

theorem clean_of_colorText (h : colorText items = .ok text) : Clean text := by
  obtain ⟨texts, hEach, h⟩ := bind_eq_ok.mp h
  have hTexts := clean_of_sixPlacesEach hEach
  split at h <;> cases h
  · simp only [mem_cons, not_mem_nil, or_false, forall_eq_or_imp, forall_eq] at hTexts
    obtain ⟨hr, hg, hb, ha⟩ := hTexts
    repeat' apply Markup.clean_append
    all_goals first | assumption | decide
  · decide

structure Emission extends Vocabulary where
  position_nothing : ∀ {w}, (position (-1)).holds w
  rough_of_shader : ∀ {w o}, (shader o).holds w → (rough o).holds w
  value_none : ∀ {w}, (value .none).holds w
  value_index : ∀ {w e}, (position e).holds w → (value (.index e)).holds w
  source_position : ∀ {w e k} [OutputNumber k], (position e).holds w → (source ⟨.int e, .int k⟩).holds w
  channel_of_mem : ∀ n ∈ channelNames, Channel n
  write : ∀ {P level message}, toFrame.Agrees P (write level message) fun _ => .pure True
  warnOnceAs : ∀ {P template message}, toFrame.Agrees P (warnOnceAs template message) fun _ => .pure True
  errorOnce : ∀ {P message}, toFrame.Agrees P (errorOnce message) fun _ => .pure True
  emit : ∀ {P tag attributes ps} [Entails P (toVocabulary.parts ps)] (_ : Ordinary toFrame.forest tag attributes),
    toFrame.Agrees P (Compile.emit ⟨tag, attributes, ps⟩) position
  emitTexture : ∀ {P name ps} [Entails P (texture name)] [Entails P (toVocabulary.parts ps)],
    toFrame.Agrees P (Compile.emit ⟨"Texture", [("PathName", .text name)], ps⟩) position
  textureObject : ∀ {P name} [Entails P (texture name)], toFrame.Agrees P (Handlers.textureObject (.text name)) position
  roughRef : ∀ {P e} [Entails P (position e)], toFrame.Agrees P (ref e) fun r => (value r).and (rough r)
  refOutput : ∀ {P e k} [OutputNumber k] [Entails P (position e)], toFrame.Agrees P (refOutput e k) value
  newShader : ∀ {P es} [Entails P (toVocabulary.channels es)],
    toFrame.Agrees P (newBundle es) fun r => (value r).and (shader r)
  sourceStep : ∀ {P o k} [OutputNumber k] [Entails P (value o)], toFrame.Agrees P (Compile.source o k) source
  present : ∀ {P o} [Entails P (value o)], toFrame.Agrees P (Compile.present o) (toVocabulary.absent · o)
  bundle : ∀ {P i} [Entails P (shader (.bundle i))],
    toFrame.Agrees P (Compile.bundle i) fun b => toVocabulary.channels b.entries
  entry : ∀ {P i name} [Entails P (value (.bundle i))], name ∈ channelNames → toFrame.Agrees P (entry i name) value
  /-- Whether the entries of a bundle are set. -/
  alters : Prop
  setEntry : ∀ {P i name o} [Entails P (shader (.bundle i))] [Entails P (value o)],
    alters → Channel name → toFrame.Agrees P (setEntry i name o) fun _ => .pure True

class KnownChannel (name : String) : Prop where
  mem : name ∈ channelNames

instance : KnownChannel "BaseColor" := ⟨by decide⟩
instance : KnownChannel "Metallic" := ⟨by decide⟩
instance : KnownChannel "Roughness" := ⟨by decide⟩
instance : KnownChannel "Specular" := ⟨by decide⟩
instance : KnownChannel "Opacity" := ⟨by decide⟩
instance : KnownChannel "EmissiveColor" := ⟨by decide⟩
instance : KnownChannel "ClearCoat" := ⟨by decide⟩
instance : KnownChannel "ClearCoatRoughness" := ⟨by decide⟩
instance : KnownChannel "Refraction" := ⟨by decide⟩
instance : KnownChannel "Normal" := ⟨by decide⟩

namespace Emission

variable (E : Emission) {P : E.Fact}
variable {name : String} {v : SocketValue} {o : Operand} {i : Nat}

theorem channel_of_known [h : KnownChannel name] : E.Channel name :=
  E.channel_of_mem name h.mem

section Entailment

variable {E} {e : Int} {o : Operand}

instance : Entails P (E.position (-1)) := ⟨fun _ => E.position_nothing⟩

instance : Entails P (E.value .none) := ⟨fun _ => E.value_none⟩

instance [h : Entails P (E.position e)] : Entails P (E.value (.index e)) :=
  ⟨fun hP => E.value_index (h.entails hP)⟩

instance {kind : SocketKind} : Entails (E.operand kind o) (E.value o) := ⟨fun h => h.1⟩

instance {kind : SocketKind} [h : Entails P (E.value o)] [h' : Entails P (E.shader o)] : Entails P (E.operand kind o) :=
  ⟨fun hP => ⟨h.entails hP, fun _ => h'.entails hP⟩⟩

theorem given_of_operand {handled : Prop} {kind : SocketKind} {w : E.World} (h : (E.operand kind o).holds w) :
    (E.given handled kind o).holds w :=
  ⟨h.1, fun hKind => ⟨E.rough_of_shader (h.2 hKind), fun _ => h.2 hKind⟩⟩

instance {name : String} {s : Source} [hName : InputName name] [h : Entails P (E.source s)] :
    Entails P (E.part (.input name s)) :=
  ⟨fun hP => .input hName (h.entails hP)⟩

instance {name : String} {k : Int} [hName : InputName name] [OutputNumber k] [h : Entails P (E.position e)] :
    Entails P (E.part (directInput name e k)) :=
  ⟨fun hP => .input hName (E.source_position (h.entails hP))⟩

instance {t : String} [h : MaskText t] : Entails P (E.part (.text t)) := ⟨fun _ => .text h.mem⟩

instance [h : Entails P (E.position e)] :
    Entails P (E.part (.element (.leaf "Coordinates" [("expression", .int e)]))) :=
  ⟨fun hP => .coordinates (h.entails hP)⟩

instance {name : String} [KnownChannel name] [h : Entails P (E.value o)] : Entails P (E.channel (name, o)) :=
  ⟨fun hP => ⟨E.channel_of_known, h.entails hP⟩⟩

end Entailment

theorem asOperand {kind : SocketKind} (hKind : kind ≠ .shader) {m m' : Compile Operand}
    (h : Agree P m m' E.value) : Agree P m m' (E.operand kind) :=
  h.imp fun hValue => ⟨hValue, fun hShader => absurd hShader hKind⟩

theorem warnOnce {message : String} : Agrees P (warnOnce message) fun _ => .pure True := E.warnOnceAs

theorem ref {e : Int} [Entails P (E.position e)] : Agrees P (ref e) E.value := E.roughRef.mono

theorem emitRef {tag : String} {attributes : List (String × Datum)} {ps : List Part}
    [Entails P (E.parts ps)] (h : Ordinary E.forest tag attributes) :
    Agrees P (emitRef ⟨tag, attributes, ps⟩) E.value :=
  (E.emit h).seq <| E.ref

theorem emitScalarText {text : String} (h : Clean text) : Agrees P (emitScalarText text) E.position :=
  E.emit (ordinary_constant (by decide) h)

theorem emitReal {x : Float} : Agrees P (emitReal x) E.position :=
  E.emitScalarText (Markup.clean_six x)

theorem emitScalarValue : Agrees P (emitScalarValue v) E.position :=
  .bindLift fun _ hText => E.emitScalarText (clean_of_scalarText hText)

theorem emitScalar {d : Datum} : Agrees P (emitScalar d) E.position :=
  E.emitScalarValue

theorem emitVector {items : List Datum} : Agrees P (emitVector items) E.position :=
  .bindLift fun _ hText => E.emit (ordinary_constant (by decide) (clean_of_vectorText hText))

theorem emitVectorValue : Agrees P (emitVectorValue v) E.position :=
  .bindLift fun _ _ => E.emitVector

theorem emitTriple {x y z : Float} : Agrees P (emitTriple x y z) E.position :=
  E.emitVector

theorem emitColor {items : List Datum} {name : Datum} (hName : name.holds → IsLabel E.forest name) :
    Agrees P (emitColor items name) E.position := by
  refine .bindLift fun text hText => ?_
  have hClean := clean_of_colorText hText
  have hOrdinary : Ordinary E.forest "Color"
      ([("constant", .text text)] ++ if name.holds then [("Name", name)] else []) := by
    split
    · exact ordinary_named (by decide) hClean (hName ‹_›)
    · exact ordinary_constant (by decide) hClean
  exact (E.emit hOrdinary).seq <| E.emitScalar.seq <| E.emit (ordinary_plain (by decide))

theorem emitColorValue {name : Datum} (hName : name.holds → IsLabel E.forest name) :
    Agrees P (Compile.emitColorValue v name) E.position :=
  .bindLift fun _ _ => E.emitColor hName

section Inputs

variable {o : Operand} [Entails P (E.value o)]

theorem input {name : String} [InputName name] : Agrees P (Compile.input name o) E.part :=
  E.sourceStep.seq .pure

theorem optionalInputAt {name : String} [InputName name] {k : Int} [OutputNumber k] :
    Agrees P (optionalInputAt name o k) E.parts := by
  cases o with
  | none => exact .pure
  | index => exact E.sourceStep.seq .pure
  | bundle => exact E.sourceStep.seq .pure

theorem optionalInput {name : String} [InputName name] : Agrees P (optionalInput name o) E.parts :=
  E.optionalInputAt

end Inputs

theorem numberedInputs {os : List Operand} [Entails P (.each E.value os)] : Agrees P (numberedInputs os) E.parts := by
  refine .mapM fun x hx => ?_
  have : Entails P (E.value x.1) := .of_mem (mem_of_getElem? (mem_zipIdx_iff_getElem?.mp hx))
  exact E.input

theorem lookUpSame {path : String} {n n' : Int} {C : E.Fact} [Entails P (E.value o)]
    [hTexture : Entails C (E.texture curvesName)] (hCurve : Entails P ((Fact.pure (n = n')).and C))
      (hCall : ∀ {Q : E.Fact} {ps : List Part} [Entails Q (E.parts ps)],
      Agrees Q (Compile.emit (.call path ps)) E.position) :
    Agree P (Handlers.lookUp path o n) (Handlers.lookUp path o n') E.position := by
  have : Entails P (.pure (n = n')) := ⟨fun hP => (hCurve.entails hP).1⟩
  have : Entails P (E.texture curvesName) := ⟨fun hP => hTexture.entails (hCurve.entails hP).2⟩
  refine .given (p := n = n') fun hSame => ?_
  subst hSame
  refine E.input.seq <| .bind (A := E.parts) ?_ fun _ => hCall
  refine E.emitScalar.seq <| E.emitScalar.seq ?_
  exact E.textureObject.seq .pure

theorem layerCoordinates {index u v : Datum} (hIndex : Clean index.display) (hU : Clean u.display) (hV : Clean v.display) :
    Agrees P (Material.layerCoordinates index u v) E.value := by
  have hOrdinary : Ordinary E.forest "TextureCoordinate" [("Index", index), ("UTiling", u), ("VTiling", v)] :=
    ordinary_of_keys (by decide) (by simp [attributeKeys]) (by simp)
      (by simpa using ⟨plain_of_clean (by decide) hIndex, plain_of_clean (by decide) hU, plain_of_clean (by decide) hV⟩)
  refine (E.emit hOrdinary).seq ?_
  refine (E.emit (ordinary_content (by decide))).seq ?_
  refine E.emitReal.seq ?_
  exact E.emitRef (ordinary_plain (by decide))

theorem generated : Agrees P Material.generated E.value :=
  E.emitRef (ordinary_content (by decide))

theorem parts_of_outputs (e : Int) {outputs : List (String × Int)}
    (hOutputs : ∀ x ∈ outputs, InputName x.1 ∧ OutputNumber x.2) :
    Entails (E.position e) (E.parts (outputs.map fun (slot, k) => directInput slot e k)) := by
  refine ⟨fun h => forall_mem_map.mpr fun x hx => ?_⟩
  obtain ⟨hName, hNumber⟩ := hOutputs x hx
  exact .input hName (E.source_position h)

theorem numbered_of_axisOutputs (axes : List Datum) : ∀ x ∈ axisOutputs axes, InputName x.1 ∧ OutputNumber x.2 := by
  intro x hx
  obtain ⟨⟨axis, i⟩, -, hAxis⟩ := mem_filterMap.mp hx
  cases axis with
  | text s =>
    obtain ⟨k, hk, rfl⟩ := Option.map_eq_some_iff.mp hAxis
    obtain ⟨j, -, ⟨⟩⟩ := Option.bind_eq_some_iff.mp hk
    exact ⟨inferInstanceAs (InputName (toString i)), inferInstanceAs (OutputNumber j)⟩
  | _ => cases hAxis

section Coordinates

variable {o : Operand} [Entails P (E.value o)]

theorem exchangeAxes {axes : List Datum} : Agrees P (Material.exchangeAxes axes o) E.value := by
  refine E.optionalInput.seq ?_
  refine (E.emit (ordinary_call isPath_breakFloat3)).bind fun broken => ?_
  have := E.parts_of_outputs broken (numbered_of_axisOutputs axes)
  exact E.emitRef (ordinary_call isPath_makeFloat3)

theorem presentOr {other : Compile Operand} (hOther : Agrees P other E.value) :
    Agrees P (presentOr o other) E.value := by
  exact E.present.seq <| .ite (fun _ => .pure) fun _ => hOther.of_entails

theorem placeCoordinates {mapping : TextureMapping} : Agrees P (Material.placeCoordinates mapping o) E.value := by
  refine .bindChoose fun x hx => ?_
  refine E.optionalInput.seq ?_
  refine E.emitVector.seq ?_
  refine E.emitVector.seq ?_
  refine E.emitVector.seq ?_
  exact E.emitRef (ordinary_call (isPath_mappings x hx))

end Coordinates

theorem darkShader : Agrees P Material.darkShader fun r => (E.value r).and (E.shader r) := by
  refine E.emitReal.seq <| E.ref.seq ?_
  refine E.emitReal.seq <| E.ref.seq ?_
  exact E.newShader

theorem clearShader : Agrees P Material.clearShader fun r => (E.value r).and (E.shader r) := by
  refine E.emitTriple.seq <| E.ref.seq ?_
  refine E.emitReal.seq <| E.ref.seq ?_
  refine E.emitReal.seq <| E.ref.seq ?_
  exact E.newShader

theorem adapt {field output : SocketKind} [hOperand : Entails P (E.operand output o)] :
    Agrees P (Material.adapt field output o) (E.operand field) := by
  have : Entails P (E.value o) := ⟨fun hP => (hOperand.entails hP).1⟩
  unfold Material.adapt
  split
  · refine E.asOperand (by decide) (E.optionalInput.seq <| ?_)
    exact E.emitRef (ordinary_content (by decide))
  · refine E.asOperand (by decide) (E.input.seq <| ?_)
    refine E.emitTriple.seq ?_
    exact E.emitRef (ordinary_plain (by decide))
  · refine E.asOperand (by decide) (E.optionalInput.seq <| ?_)
    exact E.emitRef (ordinary_plain (by decide))
  · refine E.asOperand (by decide) (E.emitReal.seq <| ?_)
    exact E.optionalInput.seq <| E.emitRef (ordinary_plain (by decide))
  · refine E.asOperand (by decide) (E.optionalInput.seq <| ?_)
    refine E.optionalInput.seq ?_
    refine E.optionalInput.seq ?_
    exact E.emitRef (ordinary_content (by decide))
  · exact .pure
  · refine (E.emitColor (absurd · (by decide))).seq ?_
    exact E.newShader.mono
  · exact E.asOperand ‹field = SocketKind.shader → False› .pure

section Bundles

variable {b : Bundle}

instance : Entails (E.channel (name, o)) (E.value o) := ⟨And.right⟩

instance : Entails (E.channel (name, o)) (.pure (E.Channel name)) := ⟨And.left⟩

theorem value_of_get? (hGet : b.get? name = some o) : Entails (E.channels b.entries) (E.value o) :=
  ⟨fun h => (h _ (Table.mem_of_lookup hGet)).2⟩

instance : Entails (E.channels b.entries) (E.value ((b.get? name).getD .none)) := by
  cases hGet : b.get? name with
  | none => exact inferInstanceAs (Entails _ (E.value .none))
  | some o => exact E.value_of_get? hGet

end Bundles

theorem onlyIf {c : Bool} {m m' : Compile Unit} (h : Agree P m m' fun _ => .pure True) :
    Agree P (onlyIf c m) (onlyIf c m') fun _ => .pure True :=
  .ite (fun _ => h) fun _ => .pure

theorem membersIf {α : Type} {c : Bool} {m m' : Compile (List α)} {A : α → E.Fact} (h : Agree P m m' (.each A)) :
    Agree P (membersIf c m) (membersIf c m') (.each A) :=
  .ite (fun _ => h) fun _ => .pure

theorem addChannel {a b : Operand} [Entails P (E.value a)] [Entails P (E.value b)] :
    Agrees P (Handlers.addChannel name a b) E.value := by
  refine E.present.seq <| E.present.seq <| .ite (fun _ => ?_) fun _ => ?_
  · refine E.input.seq <| E.input.seq ?_
    refine (E.membersIf (A := E.part) (E.emitReal.seq .pure)).seq ?_
    exact E.emitRef (ordinary_plain (by split <;> decide))
  · refine (E.presentOr .pure).seq <| .ite (fun _ => ?_) fun _ => .pure
    refine E.input.seq ?_
    refine E.emitReal.seq <| E.emitReal.seq ?_
    exact E.emitRef (ordinary_plain (by decide))

theorem fillOpacity (hAlters : E.alters) [Entails P (E.shader (.bundle i))] :
    Agrees P (Handlers.fillOpacity i) fun _ => .pure True := by
  refine E.bundle.seq <| .ite (fun _ => ?_) fun _ => .pure
  refine E.emitReal.seq <| E.ref.seq ?_
  exact E.setEntry hAlters E.channel_of_known

theorem fillOpacities (hAlters : E.alters) {j : Nat} [Entails P (E.shader (.bundle i))]
    [Entails P (E.shader (.bundle j))] : Agrees P (Handlers.fillOpacities i j) fun _ => .pure True := by
  refine E.bundle.seq <| E.bundle.seq ?_
  exact .ite (fun _ => (E.fillOpacity hAlters).seq <| E.fillOpacity hAlters) fun _ => .pure

theorem mixChannel (hAlters : E.alters) {factor : Operand} (hName : E.Channel name)
    [Entails P (E.shader (.bundle i))] [Entails P (E.value factor)] [Entails P (E.value o)] :
    Agrees P (Handlers.mixChannel i factor name o) fun _ => .pure True := by
  refine E.bundle.bind fun b => ?_
  split
  · rename_i mine hGet
    have := E.value_of_get? hGet
    refine E.input.seq <| E.input.seq ?_
    refine E.input.seq <| (E.emitRef (ordinary_plain (by decide))).seq ?_
    exact E.setEntry hAlters hName
  · exact E.setEntry hAlters hName

end Emission

end SceneExchange.Material
