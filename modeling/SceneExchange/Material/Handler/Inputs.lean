import SceneExchange.Material.Handler.Coordinates

/-!
# Handlers of input nodes
-/

namespace SceneExchange.Material.Handlers

open SceneExchange.Graph Compile

def ambientOcclusion : Handler := fun visit out => do
  match ← outputName out with
  | "Color" =>
    write .warning "Unsupported material node: AMBIENT_OCCLUSION, exporting plain color instead"
    visit.named (nodeOf out) "Color"
  | "AO" =>
    write .warning "Unsupported material node: AMBIENT_OCCLUSION, exporting 1.0 value instead"
    ref (← emitReal 1.0)
  | name =>
    write .error ("Unsupported AMBIENT_OCCLUSION output: " ++ name)
    pure .none

def appendAlpha (color : Int) : Compile Int :=
  emit (.plain "AppendVector" [directInput "0" color 0, directInput "1" color 4])

def meshAttribute : Handler := fun _ out => do
  let color ← emit (.plain "VertexColor" [])
  match ← outputName out with
  | "Fac" =>
    let third ← emitTriple 0.333333 0.333333 0.333333
    emitRef (.plain "DotProduct" [directInput "0" color 0, directInput "1" third 0])
  | "Vector" => ref color
  | _ => ref (← appendAlpha color)

def vertexColor : Handler := fun _ out => do
  let color ← emit (.plain "VertexColor" [])
  match ← outputName out with
  | "Color" => refOutput (← appendAlpha color) 0
  | "Alpha" => refOutput color 4
  | _ => pure .none

def bevel : Handler := fun visit out => do
  warnOnce "Unsupported node 'Bevel', writing unmodified normal"
  let o ← visit.named (nodeOf out) "Normal"
  if ← present o then pure o else ref (← emitTriple 0.0 0.0 1.0)

def fresnel : Handler := fun visit out => do
  emitRef (.call (Function.content "BlenderFresnel") (← visit.inputs (nodeOf out) [("0", "IOR")]))

def geometry : Handler := fun _ out => do
  match ← outputName out with
  | "Position" => emitRef (.call (Function.content "BlenderWorldPosition") [])
  | "Normal" => emitRef (.plain "VertexNormalWS" [])
  | "Tangent" => emitRef (.plain "VertexTangentWS" [])
  | "True Normal" => emitRef (.call (Function.content "BlenderTrueNormal") [])
  | "Incoming" => emitRef (.call (Function.content "Incoming") [])
  | "Backfacing" =>
    showBothSides
    emitRef (.call (Function.content "Backfacing") [])
  | "Parametric" =>
    warnOnce "Unsupported node 'Geometry:Parametric'."
    ref (← emitReal 0.5)
  | "Pointiness" =>
    warnOnce "Unsupported node 'Geometry:Pointiness'."
    ref (← emitReal 0.5)
  | "Random Per Island" =>
    warnOnce "Unsupported node 'Geometry:Random Per Island'."
    ref (← emitReal 0.0)
  | _ => pure .none

def layerWeightExpression (visit : Visit) (node : NodeRef) : Compile Int := do
  let blend ← visit.named node "Blend"
  let first ← input "0" blend
  let normal ← visit.namedSilent node "Normal"
  let second ← membersIf (← present normal) do pure [← input "1" normal]
  emit (.call (Function.content "LayerWeight") (first :: second))

def layerWeight : Handler := fun visit out => do
  let e ← onceFor (nodeOf out) (layerWeightExpression visit (nodeOf out))
  match ← outputName out with
  | "Fresnel" => refOutput e 0
  | "Facing" => refOutput e 1
  | _ =>
    write .error "LAYER_WEIGHT node from unknown socket"
    refOutput e 0

def lightPath : Handler := fun _ out => do
  warnOnce ("Unsupported node 'Light Path:" ++ (← outputName out) ++ "'. Writing 1.0 value.")
  ref (← emitReal 1.0)

def objectInfo : Handler := fun _ out => do
  match ← outputName out with
  | "Location" =>
    warnOnce ("Node 'Object Info:Location' Will get inverted Y coordinates, matching UE4 " ++
      "coordinate system.")
    refOutput (← emit (.call (Function.content "Object_Location") [])) 0
  | "Color" =>
    warnOnce "Node 'Object Info:Color' is not supported by Unreal, writing white color."
    refOutput (← emitTriple 1.0 1.0 1.0) 0
  | "Alpha" =>
    warnOnce "Node 'Object Info:Alpha' is not supported by Unreal, writing 1.0 value instead."
    refOutput (← emitReal 1.0) 0
  | "Object Index" =>
    warnOnce ("Node 'Object Info:Object Index' is not supported by Unreal, writing " ++
      "PerInstanceRandom instead.")
    refOutput (← emit (.plain "PerInstanceRandom" [])) 0
  | "Material Index" =>
    warnOnce "Node 'Object Info:Material Index' is not supported by Unreal, writing 0 instead."
    refOutput (← emitReal 0.0) 0
  | "Random" =>
    warnOnce "Node 'Object Info:Random' only works for instanced meshes."
    refOutput (← emit (.plain "PerInstanceRandom" [])) 0
  | name =>
    errorOnce ("Invalid output for node 'Object Info': '" ++ name ++ "'")
    refOutput (-1) 0

def particleInfo : Handler := fun _ out => do
  warnOnce ("Unsupported node 'Particle Info:" ++ (← outputName out) ++ "'. Writing value 0.")
  refOutput (← emitReal 0.0) 0

def rgb : Handler := fun _ out => do
  let v := ((← read).outputSocket out).value
  pure (.index (← emitColorValue v (.text (← theNode out).label)))

def coordinates : Handler := fun _ out => do
  match ← outputName out with
  | "Generated" => generated
  | "Normal" => emitRef (.plain "VertexNormalWS" [])
  | "UV" => firstLayer
  | "Object" => emitRef (.call (Function.content "BlenderLocalPosition") [])
  | "Camera" => emitRef (.call (Function.content "TexCoord_Camera") [])
  | "Window" => emitRef (.call (Function.content "TexCoord_Window") [])
  | "Reflection" => emitRef (.plain "ReflectionVectorWS" [])
  | _ => pure .none

def layer : Handler := fun _ _ => do
  if ← isOwned then firstLayer else fail (.propertyOfNothing "data")

def number : Handler := fun _ out => do
  let text ← lift (scalarText ((← read).outputSocket out).value)
  let label := (← theNode out).label
  emitRef ⟨"Scalar", [("constant", .text text)] ++
    (if label.isEmpty then [] else [("Name", .text label)]), []⟩

def wireframe : Handler := fun _ _ => do
  warnOnce "Unsupported node 'Wireframe'. Writing value 0."
  ref (← emitReal 0.0)

def inputHandler? : String → Option Handler
  | "AMBIENT_OCCLUSION" => some ambientOcclusion
  | "ATTRIBUTE" => some meshAttribute
  | "VERTEX_COLOR" => some vertexColor
  | "BEVEL" => some bevel
  | "FRESNEL" => some fresnel
  | "NEW_GEOMETRY" => some geometry
  | "LAYER_WEIGHT" => some layerWeight
  | "LIGHT_PATH" => some lightPath
  | "OBJECT_INFO" => some objectInfo
  | "PARTICLE_INFO" => some particleInfo
  | "RGB" => some rgb
  | "TEX_COORD" => some coordinates
  | "UVMAP" => some layer
  | "VALUE" => some number
  | "WIREFRAME" => some wireframe
  | _ => none

end SceneExchange.Material.Handlers
