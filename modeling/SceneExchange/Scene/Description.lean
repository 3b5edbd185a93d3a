import SceneExchange.Scene.Actor
import SceneExchange.Scene.Transform

/-!
# Descriptions of lights, cameras and probes

What an object of one of these kinds adds to its actor: a tag, attributes and fields.
-/

namespace SceneExchange.Scene

open SceneExchange.Geometry Number

structure Description where
  kind : Option String := none
  attributes : List String := []
  fields : List String := []
  log : List LogLine := []
  deriving Inhabited

def valueField (name value : String) : String :=
  "\t<" ++ name ++ " value=\"" ++ value ++ "\"/>\n"

def numberField (name : String) (n : Mixed) : Except Fault String := do
  pure (valueField name (← n.six))

def centimetres (d : Datum) : Except Fault Mixed := do (← Mixed.ofDatum d).mul (.whole 100)

def pi : Float := Float.ofBits 0x400921FB54442D18

def coneFields (s : Settings) : Except Fault (List String) := do
  let size ← Mixed.ofDatum (← s.field "spot_size")
  let outer ← (← size.mul (.whole 180)).dividedBy (2.0 * pi)
  let blend ← Mixed.ofDatum (← s.field "spot_blend")
  let inner := outer * (← (← Mixed.sub (.whole 1) blend).toFloat)
  let inner := if inner < 0.0001 then 0.0001 else inner
  pure [valueField "InnerConeAngle" (six inner), valueField "OuterConeAngle" (six outer)]

def areaFields (s : Settings) : Except Fault (List String) := do
  let width ← s.field "size"
  let shape ← s.field "shape"
  let long := isText shape "RECTANGLE" || isText shape "ELLIPSE"
  let length ← if long then s.field "size_y" else pure width
  let width ← (← centimetres width).six
  let length ← (← centimetres length).six
  pure ["\t<Shape type=\"None\" width=\"" ++ width ++ "\" length=\"" ++ length ++
    "\" LightType=\"Rect\" />\n"]

def colorField (color : Datum) : Except Fault String :=
  match color with
  | .tuple items | .list items =>
    match items with
    | [r, g, b] => do
      let r ← (← Mixed.ofDatum r).six
      let g ← (← Mixed.ofDatum g).six
      let b ← (← Mixed.ofDatum b).six
      pure ("\t<Color usetemp=\"0\" R=\"" ++ r ++ "\" G=\"" ++ g ++ "\" B=\"" ++ b ++ "\"/>\n")
    | [] | [_] | [_, _] => .error (.wrongKind "not enough arguments for format string")
    | _ => .error (.wrongKind "not all arguments converted during string formatting")
  | d => .error (.wrongKind (Text.quoted d.kindName ++ " object is not subscriptable"))

def describeLight (s : Settings) : Except Fault Description := do
  let energy ← s.field "energy"
  let intensity ← Mixed.ofDatum energy
  let reach := 100.0 * (← intensity.sqrt)
  let color ← s.field "color"
  let custom ← s.field "use_custom_distance"
  let kind ← s.field "type"
  let isSun := isText kind "SUN"
  let (tag, fields) ←
    if isSun then pure ("DirectionalLight", [])
    else if isText kind "SPOT" then do pure ("SpotLight", ← coneFields s)
    else if isText kind "AREA" then do pure ("AreaLight", ← areaFields s)
    else pure ("PointLight", [])
  let reach ← if !isSun && custom.holds then centimetres (← s.field "cutoff_distance")
    else pure (Mixed.real reach)
  let softness ← numberField "SourceSize" (← centimetres (← s.field "shadow_soft_size"))
  let intensity ← numberField "Intensity" intensity
  let reach ← numberField "AttenuationRadius" reach
  pure {
    kind := some "Light"
    attributes := [" type=\"" ++ tag ++ "\"", " enabled=\"1\""]
    fields := fields ++
      [softness, intensity, reach, valueField "IntensityUnits" "Lumens", ← colorField color] }

def describeCamera (s : Settings) : Except Fault Description := do
  let focus ← s.field "dof"
  let enabled ← Settings.subfield focus "use_dof"
  let _ ← Settings.subfield focus "focus_object"
  let width ← numberField "SensorWidth" (← Mixed.ofDatum (← s.field "sensor_width"))
  let distance ← centimetres (← Settings.subfield focus "focus_distance")
  let distance ← numberField "FocusDistance" distance
  let stop ← Mixed.ofDatum (← Settings.subfield focus "aperture_fstop")
  let stop ← numberField "FStop" stop
  let length ← numberField "FocalLength" (← Mixed.ofDatum (← s.field "lens"))
  pure {
    kind := some "Camera"
    fields := ["\t<DepthOfField enabled=\"" ++ (if enabled.holds then "1" else "0") ++ "\"/>\n",
      width, valueField "SensorAspectRatio" (six 1.777778), distance, stop, length] }

def blueprint (name : String) : String :=
  " PathName=\"/DatasmithBlenderContent/Blueprints/" ++ name ++ "\""

def floatProperty (name : String) (x : Float) : String :=
  "\t<KeyValueProperty name=\"" ++ name ++ "\" type=\"Float\" val=\"" ++ six x ++ "\"/>\n"

def averageScale (m : Matrix Float) : Float :=
  let s := m.decompose.scale
  (s.x + s.y + s.z) * 0.333333

def describeProbe (s : Settings) (m : Matrix Float) : Except Fault Description := do
  let kind ← s.field "type"
  let tag := some "CustomActor"
  let failed (message : String) : Description := { kind := tag, log := [⟨.error, message⟩] }
  if isText kind "PLANAR" then
    pure { kind := tag, attributes := [blueprint "BP_BlenderPlanarReflection"] }
  else if isText kind "CUBEMAP" then
    let scale := averageScale m
    let influence ← s.field "influence_type"
    if isText influence "BOX" then
      let falloff ← Mixed.ofDatum (← s.field "falloff")
      pure {
        kind := tag
        attributes := [blueprint "BP_BlenderBoxReflection"]
        fields := [floatProperty "TransitionDistance" ((← falloff.toFloat) * scale)] }
    else if isText influence "ELIPSOID" then
      let distance ← centimetres (← s.field "influence_distance")
      pure {
        kind := tag
        attributes := [blueprint "BP_BlenderSphereReflection"]
        fields := [floatProperty "Radius" ((← distance.toFloat) * scale)] }
    else pure (failed "invalid light_probe.influence_type")
  else if isText kind "GRID" then
    pure { kind := tag, attributes := [blueprint "BP_BlenderGridProbe"] }
  else pure (failed ("unhandled light probe type " ++ kind.display))

end SceneExchange.Scene
