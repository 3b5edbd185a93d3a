import SceneExchange.Proofs.Decimals
import SceneExchange.Proofs.Spelling
import SceneExchange.Scene.Walk

/-!
# What descriptions tell

A camera, a light or a probe is described by lines with one tag each. These tags refer to nothing; their
values are numbers with six places and a few words.
-/

open List

namespace SceneExchange.Scene

open Markup (Head Spelling isSpace)
open Number (six Mixed)

variable {s : Settings}

def Yields {α : Type} (r : Except Fault α) (P : α → Prop) : Prop := ∀ a, r = .ok a → P a

namespace Yields

variable {α β : Type} {r : Except Fault α} {k : α → Except Fault β} {P : α → Prop} {Q : β → Prop}

protected theorem pure {a : α} (h : P a) : Yields (pure a) P := by
  rintro _ ⟨⟩
  exact h

protected theorem error {e : Fault} : Yields (.error e) P := by
  rintro _ ⟨⟩

protected theorem bind (h : Yields r P) (hk : ∀ a, P a → Yields (k a) Q) : Yields (r >>= k) Q := by
  intro b hb
  cases r with
  | error e => cases hb
  | ok a => exact hk a (h a rfl) b hb

theorem skip (hk : ∀ a, Yields (k a) Q) : Yields (r >>= k) Q :=
  Yields.bind (fun _ _ => trivial) fun a _ => hk a

end Yields

/-! ## Lines that refer to nothing -/

def numberTags : List String :=
  ["InnerConeAngle", "OuterConeAngle", "SourceSize", "Intensity", "AttenuationRadius", "SensorWidth",
    "SensorAspectRatio", "FocusDistance", "FStop", "FocalLength"]

inductive IsFact : Head → Prop
  | number {tag : String} (isNumber : tag ∈ numberTags) (x : Float) : IsFact ⟨tag, [("value", six x)]⟩
  | units : IsFact ⟨"IntensityUnits", [("value", "Lumens")]⟩
  | color (r g b : Float) : IsFact ⟨"Color", [("usetemp", "0"), ("R", six r), ("G", six g), ("B", six b)]⟩
  | shape (width length : Float) :
      IsFact ⟨"Shape", [("type", "None"), ("width", six width), ("length", six length), ("LightType", "Rect")]⟩
  | focus (isOn : Bool) : IsFact ⟨"DepthOfField", [("enabled", if isOn then "1" else "0")]⟩
  | property {name : String} (isProperty : name ∈ ["TransitionDistance", "Radius"]) (x : Float) :
      IsFact ⟨"KeyValueProperty", [("name", name), ("type", "Float"), ("val", six x)]⟩

def Holds (line : String) (head : Head) : Prop :=
  ∃ gap : String, (∀ c ∈ gap.toList, isSpace c) ∧ line.toList = '\t' :: ((Spelling.leaf head gap).chars ++ ['\n'])

def Tells (line : String) : Prop := ∃ head, IsFact head ∧ Holds line head

theorem chars_leaf (head : Head) (gap : String) : (Spelling.leaf head gap).chars =
    '<' :: (head.name.toList ++ (head.attributes.flatMap (fun a =>
      ' ' :: (a.1.toList ++ '=' :: Char.ofNat 34 :: (a.2.toList ++ [Char.ofNat 34]))) ++ (gap.toList ++ ['/', '>']))) := by
  simp [Spelling.chars, Head.chars, Markup.closing]
  rfl

theorem tells_number {tag : String} (hTag : tag ∈ numberTags) (x : Float) : Tells (valueField tag (six x)) :=
  ⟨_, .number hTag x, "", by simp, by simp [valueField, chars_leaf]⟩

theorem yields_numberField {tag : String} {n : Mixed} (hTag : tag ∈ numberTags) : Yields (numberField tag n) Tells := by
  refine .bind (fun text => n.exists_six) ?_
  rintro _ ⟨x, rfl⟩
  exact .pure (tells_number hTag x)

theorem tells_units : Tells (valueField "IntensityUnits" "Lumens") :=
  ⟨_, .units, "", by simp, by simp [valueField, chars_leaf]⟩

theorem tells_color (r g b : Float) :
    Tells ("\t<Color usetemp=\"0\" R=\"" ++ six r ++ "\" G=\"" ++ six g ++ "\" B=\"" ++ six b ++ "\"/>\n") :=
  ⟨_, .color r g b, "", by simp, by simp [chars_leaf]⟩

theorem tells_shape (width length : Float) : Tells ("\t<Shape type=\"None\" width=\"" ++ six width ++ "\" length=\"" ++
    six length ++ "\" LightType=\"Rect\" />\n") :=
  ⟨_, .shape width length, " ", by simp [isSpace], by simp [chars_leaf]⟩

theorem tells_focus (isOn : Bool) : Tells ("\t<DepthOfField enabled=\"" ++ (if isOn then "1" else "0") ++ "\"/>\n") :=
  ⟨_, .focus isOn, "", by simp, by cases isOn <;> simp [chars_leaf]⟩

theorem tells_property {name : String} (hName : name ∈ ["TransitionDistance", "Radius"]) (x : Float) :
    Tells (floatProperty name x) := by
  refine ⟨_, .property hName x, "", by simp, ?_⟩
  unfold floatProperty
  simp [chars_leaf]

theorem yields_six {n : Mixed} : Yields n.six fun text => ∃ x, text = six x := fun _ => n.exists_six

theorem yields_coneFields : Yields (coneFields s) fun lines => ∀ line ∈ lines, Tells line := by
  unfold coneFields
  refine .skip fun size => .skip fun size => .skip fun outer => .skip fun outer => .skip fun blend => ?_
  refine .skip fun blend => .skip fun rest => .skip fun inner => .pure ?_
  simp only [forall_mem_cons]
  exact ⟨tells_number (by decide) _, tells_number (by decide) _, forall_mem_nil _⟩

theorem yields_areaFields : Yields (areaFields s) fun lines => ∀ line ∈ lines, Tells line := by
  unfold areaFields
  refine .skip fun width => .skip fun shape => ?_
  have hRest (length : Datum) : Yields (do
      let width ← (← centimetres width).six
      let length ← (← centimetres length).six
      pure ["\t<Shape type=\"None\" width=\"" ++ width ++ "\" length=\"" ++ length ++ "\" LightType=\"Rect\" />\n"])
      fun lines => ∀ line ∈ lines, Tells line := by
    refine .skip fun width => .bind yields_six fun width hWidth => .skip fun length =>
      .bind yields_six fun length hLength => ?_
    obtain ⟨x, rfl⟩ := hWidth
    obtain ⟨y, rfl⟩ := hLength
    exact .pure (forall_mem_cons.mpr ⟨tells_shape x y, forall_mem_nil _⟩)
  dsimp only
  split
  · exact .skip hRest
  · exact hRest width

theorem yields_color (items : List Datum) : Yields (match items with
    | [r, g, b] => do
      let r ← (← Mixed.ofDatum r).six
      let g ← (← Mixed.ofDatum g).six
      let b ← (← Mixed.ofDatum b).six
      pure ("\t<Color usetemp=\"0\" R=\"" ++ r ++ "\" G=\"" ++ g ++ "\" B=\"" ++ b ++ "\"/>\n")
    | [] | [_] | [_, _] => .error (.wrongKind "not enough arguments for format string")
    | _ => .error (.wrongKind "not all arguments converted during string formatting")) Tells := by
  split
  · refine .skip fun r => .bind yields_six fun r hr => .skip fun g => .bind yields_six fun g hg => ?_
    refine .skip fun b => .bind yields_six fun b hb => ?_
    obtain ⟨x, rfl⟩ := hr
    obtain ⟨y, rfl⟩ := hg
    obtain ⟨z, rfl⟩ := hb
    exact .pure (tells_color x y z)
  all_goals exact .error

theorem yields_colorField {color : Datum} : Yields (colorField color) Tells := by
  unfold colorField
  split
  · exact yields_color _
  · exact yields_color _
  · exact .error

/-! ## Descriptions -/

def lightTypes : List String := ["DirectionalLight", "SpotLight", "AreaLight", "PointLight"]

def blueprints : List String :=
  ["BP_BlenderPlanarReflection", "BP_BlenderBoxReflection", "BP_BlenderSphereReflection", "BP_BlenderGridProbe"]

inductive Labels : Option String → List String → Prop
  | camera : Labels (some "Camera") []
  | light {type : String} (isType : type ∈ lightTypes) :
      Labels (some "Light") [" type=\"" ++ type ++ "\"", " enabled=\"1\""]
  | probe : Labels (some "CustomActor") []
  | blueprint {name : String} (isBlueprint : name ∈ blueprints) : Labels (some "CustomActor") [blueprint name]

structure Description.Told (d : Description) : Prop where
  labels : Labels d.kind d.attributes
  fields : ∀ line ∈ d.fields, Tells line

theorem yields_describeLight : Yields (describeLight s) Description.Told := by
  unfold describeLight
  refine .skip fun energy => .skip fun intensity => .skip fun root => .skip fun color => .skip fun custom =>
    .skip fun kind => ?_
  have hDescribed (type : String) (hType : type ∈ lightTypes) (fields : List String) (h : ∀ line ∈ fields, Tells line)
      (reach : Mixed) : Yields (do
      let softness ← numberField "SourceSize" (← centimetres (← s.field "shadow_soft_size"))
      let intensity ← numberField "Intensity" intensity
      let reach ← numberField "AttenuationRadius" reach
      pure {
        kind := some "Light"
        attributes := [" type=\"" ++ type ++ "\"", " enabled=\"1\""]
        fields := fields ++
          [softness, intensity, reach, valueField "IntensityUnits" "Lumens", ← colorField color] : Description })
      Description.Told := by
    refine .skip fun size => .skip fun size => ?_
    refine .bind (yields_numberField (by decide)) fun softness hSoftness => ?_
    refine .bind (yields_numberField (by decide)) fun intensity hIntensity => ?_
    refine .bind (yields_numberField (by decide)) fun reach hReach => ?_
    refine .bind yields_colorField fun color hColor => .pure ⟨.light hType, ?_⟩
    simp only [forall_mem_append, forall_mem_cons]
    exact ⟨h, hSoftness, hIntensity, hReach, tells_units, hColor, forall_mem_nil _⟩
  have hReached {k : Mixed → Except Fault Description} (h : ∀ reach, Yields (k reach) Description.Told) :
      Yields (if !isText kind "SUN" && custom.holds then do
          let distance ← s.field "cutoff_distance"
          let reach ← centimetres distance
          k reach
        else k (.real (100.0 * root))) Description.Told := by
    split
    · exact .skip fun distance => .skip h
    · exact h _
  simp only [pure_bind]
  split
  · exact hReached (hDescribed _ (by decide) _ (forall_mem_nil _))
  · split
    · exact .bind yields_coneFields fun fields hFields => hReached (hDescribed _ (by decide) _ hFields)
    · split
      · exact .bind yields_areaFields fun fields hFields => hReached (hDescribed _ (by decide) _ hFields)
      · exact hReached (hDescribed _ (by decide) _ (forall_mem_nil _))

theorem yields_describeCamera : Yields (describeCamera s) Description.Told := by
  unfold describeCamera
  refine .skip fun focus => .skip fun enabled => .skip fun _ => .skip fun width => .skip fun width => ?_
  refine .bind (yields_numberField (by decide)) fun width hWidth => ?_
  refine .skip fun distance => .skip fun distance => ?_
  refine .bind (yields_numberField (by decide)) fun distance hDistance => ?_
  refine .skip fun stop => .skip fun stop => ?_
  refine .bind (yields_numberField (by decide)) fun stop hStop => ?_
  refine .skip fun length => .skip fun length => ?_
  refine .bind (yields_numberField (by decide)) fun length hLength => .pure ⟨.camera, ?_⟩
  simp only [forall_mem_cons]
  exact ⟨tells_focus _, hWidth, tells_number (by decide) _, hDistance, hStop, hLength, forall_mem_nil _⟩

theorem yields_describeProbe {m : Geometry.Matrix Float} : Yields (describeProbe s m) Description.Told := by
  have hNone : ∀ line ∈ ([] : List String), Tells line := forall_mem_nil _
  unfold describeProbe
  refine .skip fun kind => ?_
  dsimp only
  split
  · exact .pure ⟨.blueprint (by decide), hNone⟩
  · split
    · refine .skip fun influence => ?_
      split
      · refine .skip fun _ => .skip fun falloff => .skip fun x => .pure ⟨.blueprint (by decide), ?_⟩
        exact forall_mem_cons.mpr ⟨tells_property (by decide) _, hNone⟩
      · split
        · refine .skip fun _ => .skip fun distance => .skip fun x => .pure ⟨.blueprint (by decide), ?_⟩
          exact forall_mem_cons.mpr ⟨tells_property (by decide) _, hNone⟩
        · exact .pure ⟨.probe, hNone⟩
    · split
      · exact .pure ⟨.blueprint (by decide), hNone⟩
      · exact .pure ⟨.probe, hNone⟩

end SceneExchange.Scene
