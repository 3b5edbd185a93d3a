import SceneExchange.Material.Handler.Coordinates

/-!
# Handlers of texture nodes

A texture node is one expression for all its outputs.
-/

namespace SceneExchange.Material.Handlers

open SceneExchange.Graph Compile

def proceduralCoordinates (visit : Visit) (out : SocketRef) (always : Bool) : Compile Operand := do
  mappedCoordinates visit (← lift ((← read).inputNamed (nodeOf out) "Vector")) generated always

def brick : Handler := stationed fun visit out => do
  let node := nodeOf out
  let vector ← optionalInput "0" (← proceduralCoordinates visit out false)
  let fields ← visit.optionalInputs node [("1", "Color1"), ("2", "Color2"), ("3", "Mortar"),
    ("4", "Scale"), ("5", "Mortar Size"), ("6", "Mortar Smooth"), ("7", "Bias"),
    ("8", "Brick Width"), ("9", "Row Height")]
  let offset ← emitScalar (← setting out "offset")
  let offsetFrequency ← emitScalar (← setting out "offset_frequency")
  let squash ← emitScalar (← setting out "squash")
  let squashFrequency ← emitScalar (← setting out "squash_frequency")
  let e ← emit (.call (Function.content "TexBrick") (vector ++ fields ++
    [directInput "10" offset 0, directInput "11" offsetFrequency 0, directInput "12" squash 0,
      directInput "13" squashFrequency 0]))
  pure ⟨e, texts ["Color", "Fac"]⟩

def checker : Handler := stationed fun visit out => do
  let vector ← optionalInput "0" (← proceduralCoordinates visit out false)
  let fields ← visit.optionalInputs (nodeOf out)
    [("1", "Color1"), ("2", "Color2"), ("3", "Scale")]
  let e ← emit (.call (Function.content "TexChecker") (vector ++ fields))
  pure ⟨e, texts ["Color", "Fac"]⟩

def gradient : Handler := stationed fun visit out => do
  let path ← choose Function.gradients (← setting out "gradient_type")
  let vector ← optionalInput "0" (← proceduralCoordinates visit out false)
  let e ← emit (.call path vector)
  pure ⟨e, texts ["Color", "Fac"]⟩

def projection? (d : Datum) : Option (List Part → Expression) :=
  if isText d "FLAT" then some (.plain "ComponentMask")
  else if isText d "BOX" then some (.call (Function.content "TexImage_ProjBox"))
  else if isText d "SPHERE" then some (.call (Function.content "TexImage_ProjSphere"))
  else if isText d "TUBE" then some (.call (Function.content "TexImage_ProjTube"))
  else none

def imageCoordinates (out : SocketRef) (o : Operand) : Compile (List Part) := do
  if ← present o then
    let d ← setting out "projection"
    match projection? d with
    | none =>
      write .error ("node TEX_IMAGE has unhandled projection: " ++ d.display)
      fail (.propertyOfNothing "push")
    | some project =>
      let projected ← emit (project (← optionalInput "0" o))
      let flipped ← emit (.call Function.flipY [directInput "0" projected 0])
      pure [.element (.leaf "Coordinates" [("expression", .int flipped)])]
  else pure []

def decodeNormal (condition : Bool) (e : Int) : Compile Int := do
  if condition then emit (.call (Function.content "NormalTo01") [directInput "0" e 5]) else pure e

/-- The expression of an image. It is read as a color, and behind a normal map as a normal; heights
are remembered, to keep them from being taken for normals. -/
def imageStation (image : Nat) (visit : Visit) (out : SocketRef) : Compile Station := do
  let current ← context
  let isHeight := inContext current "BUMP"
  let hint := if isHeight || !current.holds then .text Texture.defaultHint else current
  let name ← enterTexture image hint.display
  let field ← lift ((← read).inputNamed (nodeOf out) "Vector")
  let vector ← mappedCoordinates visit field firstLayer false
  let e ← emit ⟨"Texture", [("PathName", .text name)], ← imageCoordinates out vector⟩
  let isNormal := isText hint "NORMAL"
  let e ← decodeNormal isNormal e
  let outputs := if isNormal then texts ["Color", "Alpha"]
    else [.int 0, .int 0, .int 0, .int 0, .text "Alpha", .text "Color"]
  onlyIf isHeight (rememberHeight e)
  pure ⟨e, outputs⟩

def image : Handler := fun visit out => do
  match (← theNode out).image with
  | .absent => fail (.noProperty "Node" "image")
  | .empty => ref (← emitReal 0.0)
  | .given image => stationed (imageStation image) visit out

def magic : Handler := stationed fun visit out => do
  let vector ← optionalInput "0" (← proceduralCoordinates visit out false)
  let fields ← visit.optionalInputs (nodeOf out) [("1", "Scale"), ("2", "Distortion")]
  let depth ← emitScalar (← setting out "turbulence_depth")
  let e ← emit (.call (Function.content "TexMagic") (vector ++ fields ++ [directInput "3" depth 0]))
  pure ⟨e, texts ["Color", "Fac"]⟩

structure Argument where
  name : String
  operand : Option Operand

def argument (visit : Visit) (r : NodeRef) (name : String) (used : Bool) : Compile Argument := do
  if used then
    let o ← visit.named r name
    require (← present o) ""
    pure ⟨name, some o⟩
  else pure ⟨"0", none⟩

def vectorArgument (visit : Visit) (out : SocketRef) (dimensions : String) :
    Compile (List Part × Argument) := do
  if dimensions != "1d" then
    let o ← proceduralCoordinates visit out true
    pure (← optionalInput "0" o, ⟨"Vector", some o⟩)
  else pure ([], ⟨"0", none⟩)

def declarations (names : List String) : List Part :=
  names.zipIdx.map fun (name, i) => .element (.leaf "Arg" [("index", .int i), ("name", .text name)])

def callingCode (function : String) (names : List String) : String :=
  "float r; " ++ function ++ "(" ++ ", ".intercalate names ++ ", r); return r;"

def fedArguments (arguments : List Argument) : List (String × Operand) :=
  arguments.filterMap fun a => a.operand.map fun o => (a.name, o)

/-- The parts of a custom expression that calls a function with parameters of the given names, some
of which are declared and fed; `head` stands before them. -/
def customParts (function : String) (names declared : List String) (head inputs : List Part) :
    List Part :=
  .element (.leaf "Include"
      [("path", .text "/Plugin/DatasmithBlenderContent/BlenderMaterialTexMusgrave.ush")]) ::
    (head ++ declarations declared ++ inputs ++
      [.element (.mk "Code" [] [.datum (.text (callingCode function names))])])

def emitCustom (function : String) (head : List Part) (arguments : List Argument) :
    Compile Operand := do
  let fed := fedArguments arguments
  let inputs ← numberedInputs (fed.map Prod.snd)
  emitRef ⟨"Custom", [("Description", .text function), ("OutputType", .text "1")],
    customParts function (arguments.map Argument.name) (fed.map Prod.fst) head inputs⟩

def musgrave : Handler := fun visit out => do
  let node := nodeOf out
  let variety ← choose Function.musgraves (← setting out "musgrave_type")
  let dimensions ← choose Function.dimensions (← setting out "musgrave_dimensions")
  let function := "node_tex_musgrave_" ++ variety ++ "_" ++ dimensions
  let (head, vector) ← vectorArgument visit out dimensions
  let w ← argument visit node "W" (dimensions == "1d" || dimensions == "4d")
  let scale ← argument visit node "Scale" true
  let detail ← argument visit node "Detail" true
  let dimension ← argument visit node "Dimension" true
  let lacunarity ← argument visit node "Lacunarity" true
  let offset ← argument visit node "Offset"
    (["ridged_multi_fractal", "hybrid_multi_fractal", "hetero_terrain"].contains variety)
  let gain ← argument visit node "Gain"
    (["ridged_multi_fractal", "hybrid_multi_fractal"].contains variety)
  emitCustom function head [vector, w, scale, detail, dimension, lacunarity, offset, gain]

def requiredInputs (visit : Visit) (r : NodeRef) (start : Nat) (names : List String) :
    Compile (List Part) := do
  pure (← names.zipIdx.mapM fun (name, i) => do
    let o ← visit.namedSilent r name
    require (← present o) ""
    optionalInput (toString (start + i)) o).flatten

def noise : Handler := stationed fun visit out => do
  let node := nodeOf out
  let dimensions ← choose Function.dimensions (← setting out "noise_dimensions")
  let vector ← membersIf (dimensions != "1d") do
    optionalInput "0" (← proceduralCoordinates visit out true)
  let start := if dimensions != "1d" then 1 else 0
  let names := (if dimensions == "1d" || dimensions == "4d" then ["W"] else []) ++
    ["Scale", "Detail", "Roughness", "Distortion"]
  let fields ← requiredInputs visit node start names
  let e ← emit (.call (Function.content ("TexNoise_" ++ dimensions)) (vector ++ fields))
  pure ⟨e, texts ["Fac", "Color"]⟩

def sky : Handler := fun _ _ => do
  warnOnce "Unsupported node 'Sky Texture', Writing value 0."
  ref (← emitReal 0.0)

def metrics : List (String × Float) :=
  [("EUCLIDEAN", 0.0), ("MANHATTAN", 1.0), ("CHEBYCHEV", 2.0), ("MINKOWSKI", 3.0)]

def voronoiOutputs (feature : Datum) (dimensions : String) : List String :=
  if isText feature "DISTANCE_TO_EDGE" then ["Distance"]
  else if isText feature "N_SPHERE_RADIUS" then ["Radius"]
  else if dimensions == "1d" then ["Distance", "Color", "W"]
  else if dimensions == "4d" then ["Distance", "Color", "Position", "W"]
  else ["Distance", "Color", "Position"]

def voronoi : Handler := stationed fun visit out => do
  let node := nodeOf out
  let dimensions ← choose Function.dimensions (← setting out "voronoi_dimensions")
  let feature ← setting out "feature"
  let variety ← choose Function.voronois feature
  let vector ← membersIf (dimensions != "1d") do
    optionalInput "0" (← proceduralCoordinates visit out true)
  let start := if dimensions != "1d" then 1 else 0
  let names := (if dimensions == "1d" || dimensions == "4d" then ["W"] else []) ++ ["Scale"] ++
    (if isText feature "SMOOTH_F1" then ["Smoothness"] else [])
  let fields ← requiredInputs visit node start names
  let next := start + names.length
  let usesMetric := dimensions != "1d" && !isText feature "DISTANCE_TO_EDGE" &&
    !isText feature "N_SPHERE_RADIUS"
  let metric ← setting out "distance"
  let exponent ← membersIf (usesMetric && isText metric "MINKOWSKI")
    (requiredInputs visit node next ["Exponent"])
  let next := if usesMetric then next + 1 else next
  let randomness ← requiredInputs visit node next ["Randomness"]
  let last ← membersIf usesMetric do
    let m ← emitReal (← choose metrics metric)
    pure [directInput (toString (next + 1)) m 0]
  let e ← emit (.call (Function.content ("TexVoronoi_" ++ variety ++ "_" ++ dimensions))
    (vector ++ fields ++ exponent ++ randomness ++ last))
  pure ⟨e, texts (voronoiOutputs feature dimensions)⟩

def waveNumbers (out : SocketRef) : Compile (Float × Int) := do
  let waveType ← setting out "wave_type"
  if isText waveType "BANDS" then
    pure (0.0, ← position ["X", "Y", "Z", "DIAGONAL"] (← setting out "bands_direction"))
  else if isText waveType "RINGS" then
    pure (1.0, ← position ["X", "Y", "Z", "SPHERICAL"] (← setting out "rings_direction"))
  else pure (0.0, 0)

def wave : Handler := stationed fun visit out => do
  let (kind, direction) ← waveNumbers out
  let profile ← position ["SIN", "SAW", "TRI"] (← setting out "wave_profile")
  let vector ← optionalInput "0" (← proceduralCoordinates visit out false)
  let fields ← visit.optionalInputs (nodeOf out) [("1", "Scale"), ("2", "Distortion"),
    ("3", "Detail"), ("4", "Detail Scale"), ("5", "Detail Roughness"), ("6", "Phase Offset")]
  let kind ← emitReal kind
  let direction ← emitScalar (.int direction)
  let profile ← emitScalar (.int profile)
  let e ← emit (.call (Function.content "TexWave") (vector ++ fields ++
    [directInput "7" kind 0, directInput "8" direction 0, directInput "9" profile 0]))
  pure ⟨e, texts ["Color", "Fac"]⟩

def whiteNoise : Handler := stationed fun visit out => do
  let node := nodeOf out
  let dimensions ← choose Function.dimensions (← setting out "noise_dimensions")
  let vector ← membersIf (dimensions != "1d") do
    optionalInput "0" (← visit.namedSilent node "Vector")
  let w ← membersIf (dimensions == "1d" || dimensions == "4d") do
    optionalInput (if dimensions == "1d" then "0" else "1") (← visit.namedSilent node "W")
  let e ← emit (.call (Function.content ("TexWhiteNoise_" ++ dimensions)) (vector ++ w))
  pure ⟨e, texts ["Value", "Color"]⟩

def textureHandler? : String → Option Handler
  | "TEX_BRICK" => some brick
  | "TEX_CHECKER" => some checker
  | "TEX_GRADIENT" => some gradient
  | "TEX_IMAGE" => some image
  | "TEX_MAGIC" => some magic
  | "TEX_MUSGRAVE" => some musgrave
  | "TEX_NOISE" => some noise
  | "TEX_SKY" => some sky
  | "TEX_VORONOI" => some voronoi
  | "TEX_WAVE" => some wave
  | "TEX_WHITE_NOISE" => some whiteNoise
  | _ => none

end SceneExchange.Material.Handlers
