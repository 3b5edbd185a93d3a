import SceneExchange.Proofs.Growth
import SceneExchange.Proofs.Rows

/-!
# The lines and attributes of actors

Every line of an actor holds one tag. What it refers to is told by the line itself: the name of a mesh, or
a material with the slot that it stands in. The attributes of an actor are its visibility, and those of
the lights and probes that it was described as.
-/

open List

namespace SceneExchange.Scene

open Text Number

open Markup (Head Spelling Clean Rows isName isSpace namespaceWord clean_six clean_toString)
open Number (six)

/-! ## What an attribute says -/

def lightOf? (text : String) : Option String := between? " type=\"" "\"" text.toList

def keyOf (text : String) : String := String.ofList ((text.toList.drop 1).takeWhile (· != '='))

/-! ## Lines -/

inductive Line : String → Head → Prop
  | mesh (name : String) : Line (meshLine name) ⟨"mesh", [("name", name)]⟩
  | material {lead : String} (isLead : IsLead lead) (i : Nat) (name : String) :
      Line (materialLine lead i name) ⟨"material", [("id", toString i), ("name", name)]⟩
  | fact {line : String} {head : Head} (isFact : IsFact head) (holds : Holds line head) : Line line head

/-- The texts in a line that are not of its own making. -/
def textsOf (line : String) : List String := (meshOf? line).toList ++ ((materialOf? line).map Prod.snd).toList

def IsKey (key : String) : Prop := isName key ∧ key.toList ≠ namespaceWord

instance (key : String) : Decidable (IsKey key) := inferInstanceAs (Decidable (_ ∧ _))

def lineKeys : List (String × List String) :=
  [("mesh", ["name"]), ("material", ["id", "name"]), ("IntensityUnits", ["value"]), ("Color", ["usetemp", "R", "G", "B"]),
    ("Shape", ["type", "width", "length", "LightType"]), ("DepthOfField", ["enabled"]),
    ("KeyValueProperty", ["name", "type", "val"])] ++ numberTags.map (·, ["value"])

theorem isKey_of_lineKeys : ∀ x ∈ lineKeys, isName x.1 ∧ (∀ key ∈ x.2, IsKey key) ∧ x.2.Nodup := by decide +kernel

theorem isClean_of_lineKeys {head : Head} (h : (head.name, head.attributes.map Prod.fst) ∈ lineKeys)
    (hValues : ∀ v ∈ head.attributes.map Prod.snd, Clean v) : head.IsClean ∧ head.Distinct := by
  obtain ⟨hName, hKeys, hDistinct⟩ := isKey_of_lineKeys _ h
  refine ⟨⟨hName, fun a ha => hKeys a.1 (mem_map.mpr ⟨a, ha, rfl⟩), fun a ha => ?_⟩, hDistinct⟩
  exact hValues a.2 (mem_map.mpr ⟨a, ha, rfl⟩)

theorem clean_words : ∀ word ∈ ["Lumens", "0", "1", "None", "Rect", "Float", "TransitionDistance", "Radius"],
    Clean word := by
  decide +kernel

theorem IsFact.isClean {head : Head} (h : IsFact head) : head.IsClean ∧ head.Distinct := by
  cases h with
  | number isNumber x =>
    refine isClean_of_lineKeys (mem_append_right _ (mem_map.mpr ⟨_, isNumber, rfl⟩)) ?_
    simpa using clean_six x
  | units => exact isClean_of_lineKeys (by simp [lineKeys]) (by simpa using clean_words "Lumens" (by simp))
  | color r g b =>
    refine isClean_of_lineKeys (by simp [lineKeys]) ?_
    simpa using ⟨clean_words "0" (by simp), clean_six r, clean_six g, clean_six b⟩
  | shape width length =>
    refine isClean_of_lineKeys (by simp [lineKeys]) ?_
    simpa using ⟨clean_words "None" (by simp), clean_six width, clean_six length, clean_words "Rect" (by simp)⟩
  | focus isOn =>
    refine isClean_of_lineKeys (by simp [lineKeys]) ?_
    cases isOn
    · simpa using clean_words "0" (by simp)
    · simpa using clean_words "1" (by simp)
  | @property name isProperty x =>
    refine isClean_of_lineKeys (by simp [lineKeys]) ?_
    have hName : Clean name := clean_words name (by simp only [mem_cons] at isProperty ⊢; tauto)
    simpa using ⟨hName, clean_words "Float" (by simp), clean_six x⟩

section Line

variable {line : String} {head : Head}

theorem Line.isClean (h : Line line head) (hTexts : ∀ t ∈ textsOf line, Clean t) : head.IsClean ∧ head.Distinct := by
  cases h with
  | mesh name =>
    have hName : Clean name := hTexts name (by simp [textsOf, meshOf?_meshLine])
    exact isClean_of_lineKeys (by simp [lineKeys]) (by simpa using hName)
  | material isLead i name =>
    have hName : Clean name := hTexts name (by simp [textsOf, materialOf?_materialLine isLead])
    exact isClean_of_lineKeys (by simp [lineKeys]) (by simpa using ⟨clean_toString i, hName⟩)
  | fact isFact => exact isFact.isClean

theorem Line.exists_text (h : Line line head) : ∃ lead gap : String, (∀ c ∈ lead.toList, isSpace c) ∧
    (∀ c ∈ gap.toList, isSpace c) ∧ line.toList = lead.toList ++ ((Spelling.leaf head gap).chars ++ ['\n']) := by
  cases h with
  | mesh name => exact ⟨"\t", "", by decide, by simp, by simp [meshLine, chars_leaf]⟩
  | @material lead isLead i name =>
    refine ⟨lead, "", ?_, by simp, by simp [materialLine, chars_leaf]⟩
    obtain rfl | rfl := isLead <;> decide
  | fact _ holds =>
    obtain ⟨gap, hGap, hText⟩ := holds
    exact ⟨"\t", gap, by decide, hGap, by simpa using hText⟩

theorem Line.rows (h : Line line head) (hTexts : ∀ t ∈ textsOf line, Clean t) : Rows line [head.sight] := by
  obtain ⟨lead, gap, hLead, hGap, hText⟩ := h.exists_text
  exact Markup.rows_leaf (h.isClean hTexts).1 hLead hGap hText

end Line

/-! ## Transforms -/

def placementHead (p : Geometry.Placement) : Head :=
  ⟨"Transform", [("tx", six p.location.x), ("ty", six p.location.y), ("tz", six p.location.z), ("qw", six p.rotation.w),
    ("qx", six p.rotation.x), ("qy", six p.rotation.y), ("qz", six p.rotation.z), ("sx", six p.scale.x),
    ("sy", six p.scale.y), ("sz", six p.scale.z)]⟩

theorem distinct_placementHead (p : Geometry.Placement) : (placementHead p).Distinct := by
  change (["tx", "ty", "tz", "qw", "qx", "qy", "qz", "sx", "sy", "sz"] : List String).Nodup
  decide

theorem rows_placement (p : Geometry.Placement) : Rows (placementText p) [(placementHead p).sight] := by
  have hKeys : isName "Transform" ∧
      ∀ key ∈ ["tx", "ty", "tz", "qw", "qx", "qy", "qz", "sx", "sy", "sz"], IsKey key := by decide +kernel
  have hClean : (placementHead p).IsClean := by
    refine ⟨hKeys.1, fun a ha => hKeys.2 a.1 ?_, fun a ha => ?_⟩
    · exact mem_map_of_mem ha
    · simp only [placementHead, mem_cons, not_mem_nil, or_false] at ha
      obtain rfl | rfl | rfl | rfl | rfl | rfl | rfl | rfl | rfl | rfl := ha <;> exact clean_six _
  have hText : (placementText p).toList = "\t".toList ++ ((Spelling.leaf (placementHead p) "").chars ++ ['\n']) := by
    unfold placementText placementHead
    simp [chars_leaf]
  exact Markup.rows_leaf hClean (by decide) (by simp) hText

/-! ## Attributes -/

def attributeText (a : String × String) : String := " " ++ a.1 ++ "=\"" ++ a.2 ++ "\""

inductive IsAttribute (s : Scene) : String × String → Prop
  | visible (x : Nat) : IsAttribute s ("visible", Walking.visibility (s.object x))
  | type {t : String} (isType : t ∈ lightTypes) : IsAttribute s ("type", t)
  | enabled : IsAttribute s ("enabled", "1")
  | path {name : String} (isBlueprint : name ∈ blueprints) :
      IsAttribute s ("PathName", "/DatasmithBlenderContent/Blueprints/" ++ name)

section Attributes

variable {s : Scene} {a : String × String} {as : List (String × String)}

theorem IsAttribute.isKey (h : IsAttribute s a) : IsKey a.1 ∧ a.1 ∉ ["name", "layer"] := by
  have hKeys : ∀ key ∈ ["visible", "type", "enabled", "PathName"], IsKey key ∧ key ∉ ["name", "layer"] := by decide +kernel
  cases h <;> exact hKeys _ (by simp)

theorem IsAttribute.clean (h : IsAttribute s a) (hVisible : ∀ x, Clean (Walking.visibility (s.object x))) : Clean a.2 := by
  have hWords : ∀ word ∈ lightTypes ++ "1" :: blueprints.map ("/DatasmithBlenderContent/Blueprints/" ++ ·), Clean word := by
    decide +kernel
  cases h with
  | visible x => exact hVisible x
  | type isType => exact hWords _ (mem_append_left _ isType)
  | enabled => exact hWords _ (by simp)
  | path isBlueprint =>
    exact hWords _ (mem_append_right _ (mem_cons_of_mem _ (mem_map.mpr ⟨_, isBlueprint, rfl⟩)))

theorem keyOf_attributeText (h : IsAttribute s a) : keyOf (attributeText a) = a.1 := by
  have hEquals : ∀ c ∈ a.1.toList, c != '=' := by
    intro c hc
    rw [bne_iff_ne]
    rintro rfl
    exact Markup.notMem_of_isName h.isKey.1.1 (by decide) hc
  have hText : (attributeText a).toList.drop 1 = a.1.toList ++ '=' :: doubleQuote :: (a.2.toList ++ [doubleQuote]) := by
    simp [attributeText, doubleQuote]
  rw [keyOf, hText, takeWhile_append_of_pos hEquals]
  simp

theorem lightOf?_attributeText (h : IsAttribute s a) :
    lightOf? (attributeText a) = if a.1 = "type" then some a.2 else none := by
  cases h with
  | @type t _ =>
    have hText : (attributeText ("type", t)).toList = " type=\"".toList ++ (t.toList ++ "\"".toList) := by
      simp [attributeText]
    rw [lightOf?, hText, between?_append, if_pos rfl]
  | visible x => exact between?_eq_none (by simp [attributeText])
  | enabled => exact between?_eq_none (by simp [attributeText])
  | path => exact between?_eq_none (by simp [attributeText])

theorem findSome?_lightOf? (h : ∀ a ∈ as, IsAttribute s a) :
    (as.map attributeText).findSome? lightOf? = as.lookup "type" := by
  induction as with
  | nil => rfl
  | cons a as ih =>
    obtain ⟨hFirst, hRest⟩ := forall_mem_cons.mp h
    rw [map_cons, findSome?_cons, lightOf?_attributeText hFirst, ih hRest, List.lookup_cons]
    by_cases hType : a.1 = "type"
    · simp [hType]
    · have hOther : ("type" == a.1) = false := by simpa using fun hSame => hType hSame.symm
      simp [hType, hOther]

theorem Labels.attributes {kind : Option String} {texts : List String} (h : Labels kind texts) (s : Scene) :
    kind.isSome ∧ ∃ as : List (String × String), texts = as.map attributeText ∧ (∀ a ∈ as, IsAttribute s a) ∧
      (kind = some "Light" → (as.lookup "type").isSome) := by
  cases h with
  | camera => exact ⟨rfl, [], rfl, by simp, by simp⟩
  | @light type isType =>
    refine ⟨rfl, [("type", type), ("enabled", "1")], by simp [attributeText], ?_, fun _ => rfl⟩
    simpa using ⟨IsAttribute.type isType, IsAttribute.enabled⟩
  | probe => exact ⟨rfl, [], rfl, by simp, by simp⟩
  | @blueprint name isBlueprint =>
    have hText : Scene.blueprint name = attributeText ("PathName", "/DatasmithBlenderContent/Blueprints/" ++ name) := by
      unfold Scene.blueprint attributeText
      rw [← String.toList_inj]
      simp
    refine ⟨rfl, [("PathName", "/DatasmithBlenderContent/Blueprints/" ++ name)], by simp [hText], ?_, by simp⟩
    simpa using IsAttribute.path isBlueprint

end Attributes

/-! ## Actors of walks -/

structure ActorHead.Formed (s : Scene) (h : ActorHead) : Prop where
  fields : ∀ line ∈ h.fields, ∃ head, Line line head
  attributes : ∃ as : List (String × String), h.attributes = as.map attributeText ∧ (∀ a ∈ as, IsAttribute s a) ∧
    (h.kind = some "Light" → (as.lookup "type").isSome)
  transform : IsPlacement h.transform
  instances : ∀ {mesh ps}, (mesh, ps) ∈ h.instances.entries → ps ≠ [] ∧ ∀ p ∈ ps, p.Stands

theorem Grown.formed {s : Scene} {h : ActorHead} (hGrown : Grown s h) : h.Formed s := by
  induction hGrown with
  | @drafted x name transform layer placed =>
    refine ⟨by simp, ⟨[("visible", Walking.visibility (s.object x))], by simp [attributeText], ?_, by simp⟩, placed, ?_⟩
    · simpa using IsAttribute.visible x
    · intro mesh ps hMem
      cases hMem
  | @described h d _ told ih =>
    obtain ⟨hKind, bs, hTexts, hAttributes', hLight'⟩ := told.labels.attributes s
    obtain ⟨as, hSame, hAttributes, -⟩ := ih.attributes
    refine ⟨forall_mem_append.mpr ⟨ih.fields, fun line hLine => ?_⟩, ⟨as ++ bs, ?_,
      forall_mem_append.mpr ⟨hAttributes, hAttributes'⟩, fun hLight => ?_⟩, ih.transform, ih.instances⟩
    · obtain ⟨head, hFact, hHolds⟩ := told.fields line hLine
      exact ⟨head, .fact hFact hHolds⟩
    · rw [ActorHead.telling, hSame, hTexts, map_append]
    · obtain ⟨k, hk⟩ := Option.isSome_iff_exists.mp hKind
      rw [ActorHead.telling, hk] at hLight
      rw [lookup_append, Option.isSome_or, hLight' (hk.trans hLight), Bool.or_true]
  | @shown h mesh _ ih =>
    obtain ⟨as, hSame, hAttributes, -⟩ := ih.attributes
    refine ⟨forall_mem_append.mpr ⟨ih.fields, forall_mem_singleton.mpr ⟨_, .mesh mesh⟩⟩,
      ⟨as, hSame, hAttributes, by simp [ActorHead.showing]⟩, ih.transform, ih.instances⟩
  | @painted h ps _ ih =>
    refine ⟨forall_mem_append.mpr ⟨ih.fields, fun line hLine => ?_⟩, ih.attributes, ih.transform, ih.instances⟩
    obtain ⟨i, name, rfl⟩ := exists_of_paints line hLine
    exact ⟨_, .material (.inl rfl) i name⟩
  | @listed h mesh p _ stands ih =>
    refine ⟨ih.fields, ih.attributes, ih.transform, fun {mesh' ps} hMem => ?_⟩
    obtain hNew | hOld := Table.mem_insertEntry hMem
    · cases hNew
      refine ⟨by simp, fun q hq => ?_⟩
      obtain hq | hq := mem_append.mp hq
      · cases hGet : h.instances.get? mesh with
        | none =>
          rw [hGet] at hq
          cases hq
        | some ps =>
          rw [hGet] at hq
          exact (ih.instances (Table.mem_of_lookup hGet)).2 q hq
      · obtain rfl := mem_singleton.mp hq
        exact stands
    · exact ih.instances hOld
  | turned _ placed ih => exact ⟨ih.fields, ih.attributes, placed, ih.instances⟩

end SceneExchange.Scene
