import SceneExchange.Proofs.Compilation
import SceneExchange.Proofs.Entries

/-!
# Shapes of expressions

The parts of what a run emits are of a few kinds, and every texture that is named there has been
entered, or is that of the curves, which is entered at the end. An expression that names a texture
was emitted after the texture was entered, so this is an invariant of all steps: the points of a run
are the names that it may refer to, and they grow.
-/

namespace SceneExchange.Material

open SceneExchange.Graph Compile Material.Frame List List.Subset Operand Handlers Datum Text
open Markup (Clean clean_append)

variable {bundles : Array Bundle} {name : String} {f : Forest} {s t : Session}

def bundleKeys : List String := channelNames ++ ["expression", "OutputIndex"]

/-- The keys of a bundle are distinct, and either channels or parts of a reference. -/
structure Tidy (b : Bundle) : Prop where
  distinct : b.keys.Nodup
  keys : ∀ x ∈ b.entries, x.1 ∈ bundleKeys

theorem Tidy.insert {b : Bundle} (h : Tidy b) {name : String} (hName : name ∈ bundleKeys) (o : Operand) :
    Tidy (b.insert name o) := by
  refine ⟨Table.nodup_keys_insert h.distinct name o, fun x hx => ?_⟩
  obtain rfl | hx := Table.mem_insertEntry hx
  · exact hName
  · exact h.keys x hx

theorem tidy_empty : Tidy .empty := ⟨nodup_nil, forall_mem_nil _⟩

theorem tidy_ofList {es : List (String × Operand)} (h : ∀ x ∈ es, x.1 ∈ bundleKeys) : Tidy (.ofList es) := by
  suffices ∀ b, Tidy b → Tidy (es.foldl (fun b x => b.insert x.1 x.2) b) from this _ tidy_empty
  induction es with
  | nil => exact fun b hb => hb
  | cons x es ih =>
    obtain ⟨hKey, hRest⟩ := forall_mem_cons.mp h
    exact fun b hb => ih hRest _ (hb.insert hKey x.2)

theorem tidy_getD (hBundles : ∀ b ∈ bundles, Tidy b) (i : Nat) : Tidy (bundles[i]?.getD .empty) := by
  cases hGet : bundles[i]? with
  | none => exact tidy_empty
  | some b => exact hBundles b (Array.mem_of_getElem? hGet)

structure Innate (d : Datum) : Prop where
  eq_datum : ∃ bundles fuel visited o, d = datum bundles fuel visited o
  clean : Clean d.display

theorem innate_int (n : Int) : Innate (.int n) :=
  ⟨⟨#[], 0, [], .index n, rfl⟩, by simpa using Markup.clean_toString_int n⟩

def Source.Innate (s : Source) : Prop := Material.Innate s.expression ∧ Material.Innate s.output

theorem clean_entryLiterals {entries : List (Datum × Datum)} (h : ∀ x ∈ entries, Clean x.1.literal ∧ Clean x.2.literal) :
    Clean (entryLiterals entries) := by
  induction entries with
  | nil => decide
  | cons x rest ih =>
    obtain ⟨⟨hKey, hValue⟩, hRest⟩ := forall_mem_cons.mp h
    have hFirst : Clean (x.1.literal ++ ": " ++ x.2.literal) := clean_append (clean_append hKey (by decide)) hValue
    cases rest with
    | nil => exact hFirst
    | cons y rest =>
      rw [entryLiterals]
      · exact clean_append (clean_append hFirst (by decide)) (ih hRest)
      · simp

theorem clean_quoted_of_bundleKeys : ∀ name ∈ bundleKeys, Clean (quoted name) := by decide +kernel

theorem clean_datum (hBundles : ∀ b ∈ bundles, Tidy b) (fuel : Nat)
    (visited : List Nat) (o : Operand) : Clean (o.datum bundles fuel visited).literal := by
  have hNone : Clean "None" := by decide
  have hAgain : Clean "\x7b...\x7d" := by decide
  induction fuel generalizing visited o with
  | zero =>
    cases o with
    | none => exact hNone
    | index n => exact Markup.clean_toString_int n
    | bundle i => exact hAgain
  | succ fuel ih =>
    cases o with
    | none => exact hNone
    | index n => exact Markup.clean_toString_int n
    | bundle i =>
      rw [datum]
      split
      · exact hAgain
      · refine clean_append (clean_append (by decide) (clean_entryLiterals fun x hx => ?_)) (by decide)
        rw [map_map] at hx
        obtain ⟨⟨name, o⟩, hMem, rfl⟩ := mem_map.mp hx
        exact ⟨clean_quoted_of_bundleKeys name ((tidy_getD hBundles i).keys (name, o) hMem), ih _ o⟩

theorem innate_datum (hBundles : ∀ b ∈ bundles, Tidy b) (fuel : Nat)
    (visited : List Nat) (o : Operand) : Innate (o.datum bundles fuel visited) := by
  refine ⟨⟨bundles, fuel, visited, o, rfl⟩, ?_⟩
  have hDisplay : (o.datum bundles fuel visited).display = (o.datum bundles fuel visited).literal := by
    cases o with
    | none => cases fuel <;> rfl
    | index n => cases fuel <;> rfl
    | bundle i =>
      cases fuel with
      | zero => rfl
      | succ fuel =>
        rw [datum]
        split <;> rfl
  rw [hDisplay]
  exact clean_datum hBundles fuel visited o

inductive Part.Shaped : Part → Prop
  | input {name : String} (hName : InputName name) {s : Source} (h : s.Innate) : Shaped (.input name s)
  | mask {text : String} (h : text ∈ maskTexts) : Shaped (.text text)
  | inert {e : Markup.Element} (h : Inert e) : Shaped (.element e)
  | coordinates (e : Int) : Shaped (.element (.leaf "Coordinates" [("expression", .int e)]))

inductive Expression.Shaped (names : List String) : Expression → Prop
  | ordinary {tag : String} {attributes : List (String × Datum)} {ps : List Part} (hTag : tag ∈ expressionTags)
      (hKeys : attributes.map Prod.fst ∈ attributeKeys) (hParts : ∀ p ∈ ps, p.Shaped) :
      Shaped names ⟨tag, attributes, ps⟩
  | texture {name : String} {ps : List Part} (hName : name ∈ names) (hParts : ∀ p ∈ ps, p.Shaped) :
      Shaped names ⟨"Texture", [("PathName", .text name)], ps⟩
  | object {name : String} (hName : name ∈ names) : Shaped names ⟨"TextureObject", [], [textureInput name]⟩

inductive Entry.Shaped : Entry → Prop
  | channel {name : String} (hName : name ∈ bundleKeys) {s : Source} (h : s.Innate) : Shaped (.channel name s)
  | element {name : String} (hName : name ∈ channelNames) (e : Int) : Shaped (.element name e)
  | text {t : String} (h : Setting t) : Shaped (.text t)

structure Document.Shaped (names : List String) (d : Document) : Prop where
  name : doubleQuote ∉ d.name.toList
  expressions : ∀ es ∈ d.expressions, ∀ e ∈ es, e.Shaped names
  entries : ∀ x ∈ d.entries, x.Shaped

/-- An expression whose attributes are read as they are, or else name a texture or are the label of a node. -/
def Expression.Plain (f : Forest) (e : Expression) : Prop := ∀ a ∈ e.attributes, Material.Plain f a ∨ a.1 = "PathName"

def Document.Plain (f : Forest) (d : Document) : Prop := ∀ es ∈ d.expressions, ∀ e ∈ es, e.Plain f

section Mono

variable {names names' : List String}

theorem Expression.Shaped.mono {e : Expression} (h : e.Shaped names) (hNames : names ⊆ names') : e.Shaped names' := by
  cases h with
  | ordinary hTag hKeys hParts => exact .ordinary hTag hKeys hParts
  | texture hName hParts => exact .texture (hNames hName) hParts
  | object hName => exact .object (hNames hName)

theorem Document.Shaped.mono {d : Document} (h : d.Shaped names) (hNames : names ⊆ names') : d.Shaped names' :=
  ⟨h.name, fun es hes e he => (h.expressions es hes e he).mono hNames, h.entries⟩

end Mono

theorem innate_of_source {o : Operand} {k : Int} {x : Source} (hBundles : ∀ b ∈ s.bundles, Tidy b)
    (h : outcome (source o k) f s = (.ok x, t)) : x.Innate := by
  cases o with
  | none =>
    cases h
    exact ⟨innate_int _, innate_int _⟩
  | index n =>
    cases h
    exact ⟨innate_int n, innate_int k⟩
  | bundle i =>
    rw [outcome_source_bundle] at h
    split at h
    · cases h
      refine ⟨innate_datum hBundles _ _ _, ?_⟩
      cases (s.bundles[i]?.getD .empty).get? "OutputIndex" with
      | none => exact innate_int 0
      | some o => exact innate_datum hBundles _ _ o
    · cases h

/-- The names under which the images of a session and the curves are entered have a property. -/
structure Session.Titled (T : String → Prop) (s : Session) : Prop where
  curves : T curvesName
  images : ∀ image ∈ s.images, ∀ name, Name.legal image.name = .ok name → T name

theorem Session.Titled.of_images {T : String → Prop} (h : s.Titled T) (hSame : t.images = s.images) : t.Titled T :=
  ⟨h.curves, hSame ▸ h.images⟩

/-- What was emitted names textures of a list only, all of which are promised and have a property of names. -/
structure Session.Shaped (f : Forest) (T : String → Prop) (names : List String) (s : Session) : Prop where
  promised : names ⊆ s.promised
  titled : s.Titled T
  titles : ∀ name ∈ names, T name
  catalog : s.textures.Listed
  stations : ∀ x ∈ s.stations, HasValues f x.1
  bundles : ∀ b ∈ s.bundles, Tidy b
  expressions : ∀ e ∈ s.expressions, e.Shaped names ∧ e.Plain f

namespace Session.Shaped

variable {f : Forest} {T : String → Prop} {names names' : List String} {s t : Session}

theorem of_eq (h : s.Shaped f T names)
    (hSame : (t.expressions, t.textures, t.images, t.curveCount) = (s.expressions, s.textures, s.images, s.curveCount))
    (hStations : ∀ x ∈ t.stations, HasValues f x.1) (hBundles : ∀ b ∈ t.bundles, Tidy b) : t.Shaped f T names := by
  simp only [Prod.mk.injEq] at hSame
  obtain ⟨hExpressions, hTextures, hImages, hCount⟩ := hSame
  have hPromised : t.promised = s.promised := by rw [Session.promised, hTextures, hCount, Session.promised]
  exact ⟨hPromised ▸ h.promised, h.titled.of_images hImages, h.titles, hTextures ▸ h.catalog, hStations, hBundles,
    hExpressions ▸ h.expressions⟩

theorem of_beside (h : s.Shaped f T names) (hBeside : s.Beside t) : t.Shaped f T names := by
  have hPromised := List.Subset.trans h.promised hBeside.promised
  have hCatalog := hBeside.catalog h.catalog
  rw [hBeside.eq] at hPromised hCatalog ⊢
  exact { h with promised := hPromised, titled := h.titled.of_images rfl, catalog := hCatalog }

theorem emit (h : s.Shaped f T names) {e : Expression} (he : e.Shaped names) (hPlain : e.Plain f) :
    Session.Shaped f T names { s with expressions := s.expressions.push e } := by
  refine { h with titled := h.titled.of_images rfl, expressions := fun e' he' => ?_ }
  obtain he' | rfl := Array.mem_push.mp he'
  · exact h.expressions e' he'
  · exact ⟨he, hPlain⟩

theorem newBundle (h : s.Shaped f T names) {es : List (String × Operand)} (hEntries : ∀ x ∈ es, x.1 ∈ bundleKeys) :
    Session.Shaped f T names { s with bundles := s.bundles.push (.ofList es) } := by
  refine h.of_eq rfl h.stations fun b hb => ?_
  obtain hb | rfl := Array.mem_push.mp hb
  · exact h.bundles b hb
  · exact tidy_ofList hEntries

theorem setEntry (h : s.Shaped f T names) (i : Nat) {name : String} (hName : name ∈ bundleKeys) (o : Operand) :
    Session.Shaped f T names
      { s with bundles := s.bundles.setIfInBounds i ((s.bundles[i]?.getD .empty).insert name o) } := by
  refine h.of_eq rfl h.stations fun b hb => ?_
  obtain hb | rfl := Array.mem_or_eq_of_mem_setIfInBounds hb
  · exact h.bundles b hb
  · exact (tidy_getD h.bundles i).insert hName o

theorem promise (h : s.Shaped f T names) {name : String} (hName : name ∈ s.promised) (hTitle : T name) :
    s.Shaped f T (name :: names) :=
  { h with
    promised := cons_subset.mpr ⟨hName, h.promised⟩
    titles := forall_mem_cons.mpr ⟨hTitle, h.titles⟩
    expressions := fun e he => (h.expressions e he).imp_left (·.mono (subset_cons_self name names)) }

end Session.Shaped

theorem title_of_enterTexture {image : Nat} {hint : String} (h : outcome (enterTexture image hint) f s = (.ok name, t)) :
    name ∈ t.promised ∧ ∃ x ∈ s.images, Name.legal x.name = .ok name := by
  rw [outcome_enterTexture] at h
  split at h
  · cases h
  · rename_i hLegal
    cases h
    refine ⟨mem_append_left _ (Texture.mem_keys_enter _ _ _ _), ?_⟩
    cases hGet : s.images[image]? with
    | none =>
      rw [hGet] at hLegal
      cases hLegal
    | some x =>
      rw [hGet] at hLegal
      exact ⟨x, Array.mem_of_getElem? hGet, hLegal⟩

theorem mem_promised_of_curve (h : s.curveCount ≠ 0) : curvesName ∈ s.promised := by
  rw [Session.promised, if_neg h]
  simp

theorem curveCount_of_nextCurve {x : Nat × Nat} (h : outcome nextCurve f s = (.ok x, t)) : t.curveCount ≠ 0 := by
  obtain ⟨_, _, ⟨⟩, h⟩ := outcome_bind_eq_ok h
  obtain ⟨_, _, ⟨⟩, h⟩ := outcome_bind_eq_ok h
  obtain ⟨_, _, ⟨⟩, h⟩ := outcome_bind_eq_ok h
  obtain ⟨_, -, ⟨⟩⟩ := outcome_lift_bind h
  exact Nat.succ_ne_zero _

namespace Shaping

variable (f : Forest) (T : String → Prop)

def frame : Frame where
  forest := f
  lenient _ := False
  World := List String
  Related names s s' := s = s' ∧ s.Shaped f T names
  Later names names' := names ⊆ names'
  Returns names names' := names ⊆ names'
  later_of_returns := id
  returns_refl := refl
  returns_trans := List.Subset.trans

variable {ps : List Part} {P : (frame f T).Fact}

def vocabulary : Vocabulary where
  toFrame := frame f T
  position _ := .pure True
  value _ := .pure True
  shader _ := .pure True
  rough _ := .pure True
  source s := .pure s.Innate
  texture name := ⟨fun names : List String => name ∈ names, fun hNames h => hNames h⟩
  Channel name := name ∈ bundleKeys

instance : (frame f T).Flat where
  eq_of_related h := h.1
  beside h hBeside := ⟨_, refl _, rfl, h.2.of_beside hBeside⟩
  level _ _ h := ⟨_, refl _, rfl, h.2.of_eq rfl h.2.stations h.2.bundles⟩

instance : (vocabulary f T).Flat := inferInstanceAs (frame f T).Flat

variable {f T}

theorem shaped_of_parts {names : List String} (h : ((vocabulary f T).parts ps).holds names) : ∀ p ∈ ps, p.Shaped := by
  refine fun p hp => ?_
  cases h p hp with
  | input hName hSource => exact .input hName hSource
  | text hText => exact .mask hText
  | element hInert => exact .inert hInert
  | coordinates => exact .coordinates _

theorem emit_agree {tag : String} {attributes : List (String × Datum)} (hParts : Entails P ((vocabulary f T).parts ps))
    (hShaped : ∀ names, P.holds names → (∀ p ∈ ps, p.Shaped) → Expression.Shaped names ⟨tag, attributes, ps⟩)
    (hPlain : Expression.Plain f ⟨tag, attributes, ps⟩) : Agrees P (emit ⟨tag, attributes, ps⟩) fun _ => .pure True := by
  rintro names s _ hP ⟨rfl, h⟩
  exact .done (refl _) ⟨rfl, h.emit (hShaped names hP (shaped_of_parts (hParts.entails hP))) hPlain⟩ trivial

theorem modify_agree {g : Session → Session} (h : ∀ names s, s.Shaped f T names → (g s).Shaped f T names) :
    Agrees P (modify g) fun _ => .pure True :=
  agree_of_arrives fun {names s} hRelated => ⟨names, refl _, rfl, h names s hRelated.2⟩

theorem newBundle_agree {es : List (String × Operand)} (hKeys : ∀ x ∈ es, x.1 ∈ bundleKeys) :
    Agrees P (newBundle es) fun _ => .pure True :=
  agree_of_arrives fun {names _} hRelated => ⟨names, refl _, rfl, hRelated.2.newBundle hKeys⟩

variable (f T)

def emission : Emission where
  toVocabulary := vocabulary f T
  position_nothing := trivial
  rough_of_shader := id
  value_none := trivial
  value_index := id
  source_position {_ e k} _ _ := ⟨innate_int e, innate_int k⟩
  channel_of_mem _ := mem_append_left _
  write := @fun _ _ _ => aside_write.agree
  warnOnceAs := @fun _ _ _ => aside_warnOnceAs.agree
  errorOnce := @fun _ _ => aside_errorOnce.agree
  emit := @fun _ _ _ _ hParts h =>
    emit_agree hParts (fun _ _ => .ordinary h.tag h.keys) fun a ha => .inl (h.values a ha)
  emitTexture := @fun _ _ _ hName hParts => emit_agree hParts (fun _ hP => .texture (hName.entails hP))
    (by simp [Expression.Plain])
  textureObject := by
    rintro P name hName names s _ hP ⟨rfl, h⟩
    exact .done (refl _) ⟨rfl, h.emit (.object (hName.entails hP)) (forall_mem_nil _)⟩ trivial
  roughRef := @fun _ _ _ => (newBundle_agree (by simp [bundleKeys])).imp fun _ => ⟨trivial, trivial⟩
  refOutput := @fun _ _ _ _ _ => newBundle_agree (by simp [bundleKeys])
  newShader := by
    rintro P es hChannels names s s' hP h
    have hKeys : ∀ x ∈ es, x.1 ∈ bundleKeys := fun x hx => (hChannels.entails hP x hx).1
    exact (newBundle_agree hKeys _ _ _ hP h).imp fun _ _ => ⟨trivial, trivial⟩
  sourceStep := by
    intro P o k _ _
    refine agree_of_run fun {names s} _ hShaped => ?_
    exact ⟨names, refl _, ⟨rfl, hShaped.2.of_beside (aside_source f s)⟩, fun x hx =>
      innate_of_source hShaped.2.bundles (Prod.ext hx rfl)⟩
  present := @fun _ o _ => (Aside.agree (by cases o <;> exact fun _ s => .refl s)).imp fun _ _ => trivial
  bundle := by
    rintro P i _ names s _ hP ⟨rfl, h⟩
    have hTidy := tidy_getD h.bundles i
    exact .done (refl _) ⟨rfl, h⟩ fun x hx => ⟨hTidy.keys x hx, trivial⟩
  entry := @fun _ _ _ _ _ => Aside.agree fun _ s => .refl s
  alters := True
  setEntry := by
    rintro P i name o _ _ _ hName names s _ hP ⟨rfl, h⟩
    exact .done (refl _) ⟨rfl, h.setEntry i hName o⟩ trivial

instance : (emission f T).Flat := inferInstanceAs (frame f T).Flat

variable {f T}

section Curves

variable {P : (frame f T).Fact}

/-- What is done on the side may promise a texture, which can be named from there on. -/
theorem promise_agree {α : Type} {m : Compile α} {title : α → String} (hAside : Aside m)
    (hTitle : ∀ {s t names a}, s.Shaped f T names → outcome m f s = (.ok a, t) → title a ∈ t.promised ∧ T (title a)) :
    Agrees P m fun a => (emission f T).texture (title a) := by
  refine agree_of_run fun {names s} _ ⟨_, h⟩ => ?_
  have hNext := h.of_beside (hAside (frame f T).forest s)
  generalize hRun : outcome m (frame f T).forest s = x at hNext ⊢
  obtain ⟨_ | a, t⟩ := x
  · exact ⟨names, refl _, ⟨rfl, hNext⟩, nofun⟩
  · obtain ⟨hPromised, hFine⟩ := hTitle h hRun
    refine ⟨title a :: names, subset_cons_self _ _, ⟨rfl, hNext.promise hPromised hFine⟩, ?_⟩
    rintro _ ⟨⟩
    exact mem_cons_self

theorem curveCount_of_addCurve {row : CurveRow} {s t : Session} {n : Int}
    (h : outcome (addCurve row) f s = (.ok n, t)) : t.curveCount ≠ 0 := by
  obtain ⟨x, u, hNext, h⟩ := outcome_bind_eq_ok h
  have hCount := curveCount_of_nextCurve hNext
  cases row <;> dsimp only at h <;> split at h <;> cases h <;> exact hCount

theorem curveCount_of_addBlankCurve {s t : Session} {n : Int}
    (h : outcome addBlankCurve f s = (.ok n, t)) : t.curveCount ≠ 0 := by
  obtain ⟨x, u, hNext, h⟩ := outcome_bind_eq_ok h
  cases h
  exact curveCount_of_nextCurve hNext

theorem curve_agree {m : Compile Int} (hAside : Aside m)
    (hCount : ∀ {s t n}, outcome m f s = (.ok n, t) → t.curveCount ≠ 0) :
    Agrees P m fun _ => (emission f T).texture curvesName :=
  promise_agree hAside fun h hRun => ⟨mem_promised_of_curve (hCount hRun), h.titled.curves⟩

theorem enterTexture_agree {image : Nat} {hint : String} :
    Agrees P (enterTexture image hint) (emission f T).texture := by
  refine promise_agree aside_enterTexture fun h hRun => ?_
  obtain ⟨hPromised, x, hx, hLegal⟩ := title_of_enterTexture hRun
  exact ⟨hPromised, h.titled.images x hx _ hLegal⟩

end Curves

theorem insideGroup_agree {Q : (frame f T).Fact} {m m' : Compile Operand}
    {A : Operand → (frame f T).Fact} (c : Table String (Operand × Bool))
    (hQ : ∀ names, Q.holds names) (hm : Agree Q m m' A) :
    Agree P (insideGroup c m) (insideGroup c m') A := by
  rintro names s _ hP ⟨rfl, h⟩
  have hEntered : (s.entered c).Shaped f T names := h.of_eq rfl (forall_mem_nil _) h.bundles
  have hJoint : Joint names A (outcome m f (s.entered c)) (outcome m' f (s.entered c)) := hm _ _ _ (hQ names) ⟨rfl, hEntered⟩
  refine hJoint.around outcome_insideGroup_error outcome_insideGroup_error ?_
  rintro _ a u _ returns ⟨rfl, hNext⟩ fact hRun hRun'
  rw [outcome_insideGroup_ok hRun, outcome_insideGroup_ok hRun']
  exact .done returns ⟨rfl, hNext.of_eq rfl h.stations hNext.bundles⟩ fact

theorem groupInput_agree (out field : SocketRef) : Agrees P (groupInput out field) fun _ => .pure True := by
  refine Aside.agree fun f s => ?_
  rw [outcome_groupInput]
  split <;> exact .refl s

variable (f T)

theorem clean_lookUps : ∀ path ∈ lookUps, Clean path := by decide +kernel

def compilation : Compilation where
  toEmission := emission f T
  inside _ := .pure True
  inside_tree _ _ := trivial
  admits _ := True
  admits_of_inside _ := trivial
  curve n n' := (Fact.pure (n = n')).and ((emission f T).texture curvesName)
  output _ _ := .pure True
  operand_of_output h := ⟨h, fun _ => h⟩
  vacant _ := .pure True
  free _ := .pure True
  output_of_given _ _ h := h.1
  stands := HasValues f
  output_of_station _ _ h := h
  typed := .inr id
  wrap := @fun _ _ _ _ => newBundle_agree (by simp [bundleKeys])
  context := @fun _ => Aside.agree fun _ s => .refl s
  within _ hm := hm.within
  nested hm := hm.nested
  announce := @fun _ _ _ => Aside.agree fun _ _ => .of_eq rfl rfl rfl rfl
  recalled := by
    rintro P out names s _ hP ⟨rfl, h⟩
    refine .done (refl _) ⟨rfl, h⟩ ?_
    cases s.memo.lookup out <;> trivial
  remember := @fun _ _ _ _ _ => modify_agree fun _ _ h => h.of_eq rfl h.stations h.bundles
  recalledNode := by
    rintro P r names s _ hP ⟨rfl, h⟩
    refine .done (refl _) ⟨rfl, h⟩ ?_
    cases s.nodeMemo.lookup r <;> trivial
  rememberNode := @fun _ _ _ _ _ => modify_agree fun _ _ h => h.of_eq rfl h.stations h.bundles
  station? := by
    rintro P r names s _ hP ⟨rfl, h⟩
    refine .done (refl _) ⟨rfl, h⟩ ?_
    cases hGet : s.stations.lookup r with
    | none => trivial
    | some t =>
      have hValues : HasValues f r := h.stations (r, t) (Table.mem_of_lookup hGet)
      exact ⟨trivial, hValues⟩
  rememberStation := @fun _ _ _ _ _ _ hValues =>
    modify_agree fun _ _ h => h.of_eq rfl (forall_mem_cons.mpr ⟨hValues, h.stations⟩) h.bundles
  rememberHeight := @fun _ _ _ => modify_agree fun _ _ h => h.of_eq rfl h.stations h.bundles
  showBothSides := @fun _ => Aside.agree fun _ _ => .of_eq rfl rfl rfl rfl
  isOwned := @fun _ => Aside.agree fun _ s => .refl s
  enterTexture := @fun _ _ _ => enterTexture_agree
  addCurve _ := (curve_agree aside_addCurve curveCount_of_addCurve).numbers
  addBlankCurve := (curve_agree aside_addBlankCurve curveCount_of_addBlankCurve).numbers
  lookUp := by
    intro P path o n n' hValue hCurve hPath
    refine (emission f T).lookUpSame hCurve ?_
    intro Q ps hParts
    have hKeys : [("Function", text path)].map Prod.fst ∈ attributeKeys := by simp [attributeKeys]
    exact emit_agree hParts (fun _ _ => .ordinary (by decide) hKeys)
      (by simpa [Expression.Plain] using plain_text (by decide) (clean_lookUps path hPath))
  insideGroup := by
    intro P r c kind m m' _ _ hm
    refine insideGroup_agree c (fun names => ?_) hm
    generalize Node.innerTree? _ = inner
    cases inner <;> trivial
  groupInput := @fun _ out field _ _ _ _ => groupInput_agree out field
  alters_of_mix _ := trivial

variable {f T}

section Documents

variable {P : (emission f T).Fact} {s t : Session} {names : List String}
variable {m : Definition}

def written (d : Document) : (emission f T).Fact where
  holds names := d.Shaped names ∧ d.Plain f
  stable hNames h := ⟨h.1.mono hNames, h.2⟩

theorem entries_hold {xs : List Entry} (h : ((vocabulary f T).entries xs).holds names) : ∀ x ∈ xs, x.Shaped := by
  intro x hx
  cases h x hx with
  | channel hName hSource => exact .channel hName hSource
  | element hName => exact .element hName _
  | text h => exact .text h

theorem assemble_agree {name : String} (hName : doubleQuote ∉ name.toList) {xs : List Entry}
    [h : Entails P ((emission f T).entries xs)] : Agrees P (assemble name xs) written := by
  rintro names s _ hP ⟨rfl, hShaped⟩
  refine .done (refl _) ⟨rfl, hShaped⟩ ⟨⟨hName, ?_, entries_hold (h.entails hP)⟩, ?_⟩
  · rintro _ ⟨⟩ e he
    exact (hShaped.expressions e (Array.mem_toList_iff.mp he)).1
  · rintro _ ⟨⟩ e he
    exact (hShaped.expressions e (Array.mem_toList_iff.mp he)).2

theorem defaultDocument_agree : Agrees P defaultDocument written :=
  (emission f T).defaultEntries.seq <| assemble_agree (by decide)

theorem notMem_of_legal {name title : String} (h : Name.legal name = .ok title) : doubleQuote ∉ title.toList :=
  Name.notMem_of_legal h (by decide)

theorem basicDocument_agree : Agrees P (basicDocument m) written :=
  .bindLift fun _ hName => (emission f T).basicEntries.seq <| assemble_agree (notMem_of_legal hName)

theorem shaped_heightChain (start : Int) (es : List Int) : ∀ e ∈ heightChain start es, e.Shaped names ∧ e.Plain f := by
  have hPath : IsPath Function.passthrough := isPath_content (by decide)
  have hCall (parts : List Part) (h : ∀ p ∈ parts, p.Shaped) : (Expression.call Function.passthrough parts).Shaped names ∧
      (Expression.call Function.passthrough parts).Plain f :=
    ⟨.ordinary (by decide) (by simp [attributeKeys]) h, forall_mem_singleton.mpr (.inl (plain_text (by decide) hPath.clean))⟩
  have hDirect (name : String) [hName : InputName name] (e : Int) : (directInput name e 0).Shaped :=
    .input hName ⟨innate_int e, innate_int 0⟩
  induction es generalizing start with
  | nil => simp [heightChain]
  | cons e rest ih =>
    cases rest with
    | nil => simpa [heightChain] using hCall _ (by simpa using hDirect "0" e)
    | cons e' rest =>
      rw [heightChain]
      · refine forall_mem_cons.mpr ⟨hCall _ ?_, ih (start + 1)⟩
        simpa using ⟨hDirect "0" e, hDirect "1" (start + 1)⟩
      · simp

theorem emitHeights_agree : Agrees P emitHeights fun _ => .pure True := by
  rintro names s _ hP ⟨rfl, h⟩
  refine .done (refl _) ⟨rfl, { h with titled := h.titled.of_images rfl, expressions := fun e he => ?_ }⟩ trivial
  obtain he | he := Array.mem_append.mp he
  · exact h.expressions e he
  · exact shaped_heightChain _ _ e (mem_toArray.mp he)

section Surface

variable {o : Operand} [Entails P ((emission f T).value o)] [Entails P ((emission f T).shader o)]

theorem tieHeights_agree : Agrees P (tieHeights o) fun _ => .pure True := by
  refine emitHeights_agree.bind fun x => ?_
  cases x with
  | none => exact .pure
  | some start =>
    have {Q : (emission f T).Fact} : Entails Q ((emission f T).position start) := ⟨fun _ => trivial⟩
    exact (emission f T).tieColor trivial

theorem surfaceDocument_agree {m : Definition} {name : String} (hName : doubleQuote ∉ name.toList)
    {alwaysTwoSided : Bool} :
    Agrees P (surfaceDocument m name o alwaysTwoSided) written := by
  refine tieHeights_agree.seq ?_
  refine ((emission f T).surfaceEntries trivial fun _ _ _ => aside_decideSides.agree).seq ?_
  exact assemble_agree hName

end Surface

theorem volumeOperand_agree : Agrees P (volumeOperand m)
    fun o => ((emission f T).value o).and ((emission f T).shader o) := by
  refine aside_write.agree.seq <| (emission f T).clearShader.seq ?_
  exact .bind (A := fun _ => .pure True) (modify_agree fun _ _ h => h.of_eq rfl h.stations h.bundles) fun _ => .pure

theorem compileAnew_agree {field : SocketRef} : Agrees P (compileAnew field)
    fun o => ((emission f T).value o).and ((emission f T).shader o) := by
  let H := compilation f T
  refine .bind (modify_agree fun _ _ h => h.of_eq rfl h.stations h.bundles) fun _ => .bindRead ?_
  have hVisits := H.visits_compileWith (P := H.inside (nodeOf field)) (f.nodeCount + 2) field .normal
  exact fun w s s' _ hRelated => (hVisits w s s' trivial hRelated).imp fun _ h => ⟨h.1, h.1⟩

theorem surfaceOperand_agree {output : NodeRef} : Agrees P (surfaceOperand m output)
    fun o => ((emission f T).value o).and ((emission f T).shader o) := by
  refine .bindRead (.bindLift fun surface _ => .bindLift fun volume _ => ?_)
  exact .ite (fun _ => volumeOperand_agree) fun _ => compileAnew_agree

theorem nodeDocument_agree {alwaysTwoSided : Bool} : Agrees P (nodeDocument m alwaysTwoSided) written := by
  refine .bind (modify_agree fun _ _ h => h.of_eq rfl (forall_mem_nil _) h.bundles) fun _ => ?_
  refine aside_write.agree.seq <| .bindLift fun name hName => .bindRead ?_
  have hTitle := notMem_of_legal hName
  split
  · refine aside_warnOnceAs.agree.bind fun _ => ?_
    have {Q : (emission f T).Fact} : Entails Q (written ⟨name, none, []⟩) :=
      ⟨fun _ => ⟨⟨hTitle, by simp, by simp⟩, by simp [Document.Plain]⟩⟩
    exact .pure
  · refine .bind (modify_agree fun _ _ h => h.of_eq rfl h.stations h.bundles) fun _ => ?_
    exact surfaceOperand_agree.seq <| surfaceDocument_agree hTitle

theorem startMaterial_agree {owned : Bool} : Agrees P (startMaterial owned) fun _ => .pure True := by
  refine modify_agree fun names s h => ⟨h.promised, h.titled.of_images rfl, h.titles, h.catalog, h.stations,
    fun b hb => ?_, by simp⟩
  dsimp only at hb
  split at hb
  · simp at hb
  · exact h.bundles b hb

theorem document_agree {m : Option Definition} {owned alwaysTwoSided : Bool} :
    Agrees P (document m owned alwaysTwoSided) written := by
  refine startMaterial_agree.bind fun _ => ?_
  split
  · exact aside_write.agree.seq <| defaultDocument_agree
  · refine .ite (fun _ => ?_) fun _ => ?_
    · exact aside_write.agree.seq <| nodeDocument_agree
    · exact aside_write.agree.seq <| basicDocument_agree

end Documents

end Shaping

/-- The sessions that materials are compiled in: one that nothing was compiled in, and those after the
documents of earlier materials, whether these returned or failed. -/
inductive Session.Reached (f : Forest) : Session → Prop
  | start {s : Session} (hTextures : s.textures.Listed) (hStations : s.stations = []) (hBundles : s.bundles = #[])
      (hExpressions : s.expressions = #[]) : Reached f s
  | document {s : Session} (h : Reached f s) (m : Option Definition) (owned alwaysTwoSided : Bool) :
      Reached f (outcome (Material.document m owned alwaysTwoSided) f s).2

section Runs

open Shaping

variable {f : Forest} {T : String → Prop} {names : List String} {s t : Session}

theorem joint_document (h : s.Shaped f T names) (m : Option Definition) (owned alwaysTwoSided : Bool) :
    Joint (F := (emission f T).toFrame) names written (outcome (document m owned alwaysTwoSided) f s)
      (outcome (document m owned alwaysTwoSided) f s) :=
  document_agree (P := .pure True) _ _ _ trivial ⟨rfl, h⟩

theorem shaped_of_document {m : Option Definition} {owned alwaysTwoSided : Bool} {d : Document} (h : s.Shaped f T names)
    (hRun : outcome (document m owned alwaysTwoSided) f s = (.ok d, t)) :
    ∃ names', names ⊆ names' ∧ t.Shaped f T names' ∧ d.Shaped names' := by
  have hJoint := joint_document h m owned alwaysTwoSided
  rw [hRun] at hJoint
  cases hJoint with
  | done returns related fact => exact ⟨_, returns, related.2, fact.1⟩

theorem plain_of_document {m : Option Definition} {owned alwaysTwoSided : Bool} {d : Document} (h : s.Shaped f T names)
    (hRun : outcome (document m owned alwaysTwoSided) f s = (.ok d, t)) : d.Plain f := by
  have hJoint := joint_document h m owned alwaysTwoSided
  rw [hRun] at hJoint
  cases hJoint with
  | done _ _ fact => exact fact.2

theorem Session.Shaped.fresh {T' : String → Prop} (h : s.Shaped f T names) (hTitled : s.Titled T') :
    Session.Shaped f T' [] { s with expressions := #[] } :=
  ⟨by simp, hTitled.of_images rfl, by simp, h.catalog, h.stations, h.bundles, by simp⟩

theorem Session.Reached.shaped (h : s.Reached f) : ∃ names, s.Shaped f (fun _ => True) names := by
  induction h with
  | start hTextures hStations hBundles hExpressions =>
    exact ⟨[], by simp, ⟨trivial, by simp⟩, by simp, hTextures, by simp [hStations], by simp [hBundles],
      by simp [hExpressions]⟩
  | document _ m owned alwaysTwoSided ih =>
    obtain ⟨names, hShaped⟩ := ih
    have hJoint := joint_document hShaped m owned alwaysTwoSided
    generalize outcome _ _ _ = x at hJoint
    cases hJoint with
    | done _ related => exact ⟨_, related.2⟩
    | failed related => exact ⟨_, related.2⟩
    | lost lenient => exact lenient.elim

end Runs

end SceneExchange.Material
