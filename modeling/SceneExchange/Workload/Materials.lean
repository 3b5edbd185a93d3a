import SceneExchange.Material.Document
import SceneExchange.Workload.Graph

/-!
# Materials of workloads

Three families of materials by number. Textured surfaces mix shaders over a principled one,
procedural ones send a texture through a chain of color nodes, and converted ones feed a surface
from converters. Settings cycle with the number of the material.
-/

namespace SceneExchange.Workload

open SceneExchange.Graph

def definition (name : String) (tree : Nat) : Material.Definition where
  name := name
  useNodes := true
  tree := tree
  blendMethod := .text "OPAQUE"
  alphaThreshold := .real 0.5
  backfaceCulling := .flag false
  diffuse := .tuple [.real 0.8, .real 0.8, .real 0.8, .real 1.0]
  roughness := .real 0.4
  metallic := .real 0.0
  specular := .real 0.5

structure Shaded where
  definition : Material.Definition
  tree : Tree

/-! ## Textured surfaces -/

def imageCount : Nat := 6

def image (i : Nat) : Texture.Image :=
  ⟨"img_" ++ toString i ++ ".png", cycle ["PNG", "JPEG", "TARGA", "OPEN_EXR"] i, 4, i % 3 == 0,
    none, "", id⟩

def images : Array Texture.Image := ((List.range imageCount).map image).toArray

def imageNode (projection : String) (image : Nat) : Node :=
  { withSettings [("projection", .text projection)]
      (node "TEX_IMAGE" [computed "Vector"] [sand "Color", half "Alpha"]) with
    image := .given (image % imageCount) }

def mappingNode : Node :=
  withSettings [("vector_type", .text "POINT")] (node "MAPPING"
    [vector "Vector" [0.0, 0.0, 0.0], vector "Location" [0.0, 0.0, 0.0],
      socket "Rotation" .vector (.euler [0.0, 0.0, 0.0]), vector "Scale" [1.0, 1.0, 1.0]]
    [computed "Vector"])

def coordinatesNode : Node :=
  node "TEX_COORD" [] (["Generated", "Normal", "UV", "Object", "Camera", "Window", "Reflection"].map
    computed)

def mixedShaders : List String :=
  ["BSDF_DIFFUSE", "BSDF_GLOSSY", "BSDF_GLASS", "BSDF_TRANSPARENT", "EMISSION", "BSDF_TOON",
    "BSDF_VELVET", "BSDF_HAIR"]

def texturedNodes (i : Nat) : List Node :=
  [outputNode,
    node "ADD_SHADER" [shader "A", shader "B"] [shader "Shader"],
    node "MIX_SHADER" [half "Fac", shader "S1", shader "S2"] [shader "Shader"],
    principledNode ⟨if i % 3 == 0 then 0.7 else 1.0, if i % 4 == 0 then 2.0 else 1.0,
      if i % 2 == 0 then 0.3 else 0.0⟩,
    withSettings [("blend_type", .text "MULTIPLY"), ("use_clamp", .flag true)]
      (node "MIX_RGB" [half "Fac", sand "Color1", sand "Color2"] [sand "Color"]),
    imageNode (cycle ["FLAT", "BOX", "SPHERE", "TUBE"] i) i,
    mappingNode,
    coordinatesNode,
    labelled "Tint" (node "RGB" [] [color "Color" [0.2, 0.3, 0.4, 1.0]]),
    withSettings [("operation", .text (cycle ["ADD", "POWER", "LOGARITHM", "LESS_THAN", "RADIANS",
        "SINE"] i)), ("use_clamp", .flag (i % 2 == 1))]
      (node "MATH" [half "A", half "B", half "C"] [half "Value"]),
    labelled "Rough" (node "VALUE" [] [number "Value" 0.3]),
    node "NORMAL_MAP" [half "Strength", sand "Color"] [computed "Normal"],
    imageNode "FLAT" (i + 1),
    node (cycle mixedShaders i)
      [sand "Color", half "Roughness", half "IOR", half "Strength", half "Fac", computed "Normal"]
      [shader "BSDF"],
    node "HOLDOUT" [] [shader "Holdout"]]

def texturedLinks : List Link :=
  [⟨7, 2, 6, 0⟩, ⟨6, 0, 5, 0⟩, ⟨5, 0, 4, 1⟩, ⟨8, 0, 4, 2⟩, ⟨4, 0, 3, 0⟩, ⟨10, 0, 9, 0⟩, ⟨9, 0, 3, 2⟩,
    ⟨12, 0, 11, 1⟩, ⟨11, 0, 3, 9⟩, ⟨3, 0, 2, 1⟩, ⟨13, 0, 2, 2⟩, ⟨2, 0, 1, 0⟩, ⟨14, 0, 1, 1⟩, ⟨1, 0, 0, 0⟩]

def texturedMaterial (i : Nat) : Shaded :=
  ⟨{ definition ("PBR." ++ toString i) i with
      blendMethod := .text (cycle ["OPAQUE", "CLIP", "HASHED", "BLEND"] i)
      backfaceCulling := .flag (i % 5 == 0) },
    tree (texturedNodes i) texturedLinks⟩

def flat : Material.Definition :=
  { definition "Flat" 0 with
    useNodes := false
    diffuse := .tuple [.real 0.7, .real 0.6, .real 0.5, .real 1.0]
    metallic := .real 0.1 }

/-! ## Procedural surfaces -/

structure Source where
  node : Node
  output : Nat
  deriving Inhabited

def origin : Socket := vector "Vector" [0.0, 0.0, 0.0]

def proceduralSources : List Source :=
  [⟨withSettings [("noise_dimensions", .text "3D")]
      (node "TEX_NOISE" (origin :: ["W", "Scale", "Detail", "Roughness", "Distortion"].map half)
        [half "Fac", sand "Color"]), 1⟩,
    ⟨withSettings [("voronoi_dimensions", .text "2D"), ("feature", .text "F1"),
        ("distance", .text "EUCLIDEAN")]
      (node "TEX_VORONOI" (origin :: ["W", "Scale", "Smoothness", "Exponent", "Randomness"].map half)
        [half "Distance", sand "Color", half "Position"]), 1⟩,
    ⟨withSettings [("wave_type", .text "BANDS"), ("bands_direction", .text "X"),
        ("rings_direction", .text "X"), ("wave_profile", .text "SIN")]
      (node "TEX_WAVE" (computed "Vector" :: ["Scale", "Distortion", "Detail", "Detail Scale",
        "Detail Roughness", "Phase Offset"].map half) [sand "Color", half "Fac"]), 0⟩,
    ⟨node "TEX_CHECKER" [computed "Vector", sand "Color1", sand "Color2", half "Scale"]
      [sand "Color", half "Fac"], 0⟩,
    ⟨withSettings [("gradient_type", .text "LINEAR")]
      (node "TEX_GRADIENT" [computed "Vector"] [sand "Color", half "Fac"]), 1⟩,
    ⟨withSettings [("turbulence_depth", .int 2)]
      (node "TEX_MAGIC" [computed "Vector", half "Scale", half "Distortion"]
        [sand "Color", half "Fac"]), 0⟩,
    ⟨withSettings [("noise_dimensions", .text "3D")]
      (node "TEX_WHITE_NOISE" [origin, half "W"] [half "Value", sand "Color"]), 1⟩,
    ⟨withSettings [("offset", .real 0.5), ("offset_frequency", .int 2), ("squash", .real 1.0),
        ("squash_frequency", .int 2)]
      (node "TEX_BRICK" ([computed "Vector", sand "Color1", sand "Color2", sand "Mortar"] ++
        ["Scale", "Mortar Size", "Mortar Smooth", "Bias", "Brick Width", "Row Height"].map half)
        [sand "Color", half "Fac"]), 0⟩,
    ⟨withSettings [("musgrave_type", .text "FBM"), ("musgrave_dimensions", .text "3D")]
      (node "TEX_MUSGRAVE" (origin :: ["W", "Scale", "Detail", "Dimension", "Lacunarity", "Offset",
        "Gain"].map half) [half "Fac"]), 0⟩]

def rampNode : Node :=
  { node "VALTORGB" [half "Fac"] [sand "Color"] with
    ramp := .given ⟨fun p => [p, 0.5 * p, 1.0 - p, 1.0]⟩ }

def proceduralNodes (source : Node) : List Node :=
  [outputNode,
    principledNode .plain,
    node "BRIGHTCONTRAST" [sand "Color", half "Bright", half "Contrast"] [sand "Color"],
    node "INVERT" [half "Fac", sand "Color"] [sand "Color"],
    node "HUE_SAT" [half "Hue", half "Saturation", half "Value", half "Fac", sand "Color"]
      [sand "Color"],
    rampNode,
    source]

def proceduralMaterial (i : Nat) : Shaded :=
  let source := cycle proceduralSources i
  ⟨definition ("Proc." ++ toString i) i, tree (proceduralNodes source.node)
    [⟨6, source.output, 5, 0⟩, ⟨5, 0, 4, 4⟩, ⟨4, 0, 3, 1⟩, ⟨3, 0, 2, 0⟩, ⟨2, 0, 1, 0⟩, ⟨1, 0, 0, 0⟩]⟩

/-! ## Converted surfaces -/

def geometryOutputs : List String :=
  ["Position", "Normal", "Tangent", "True Normal", "Incoming", "Backfacing", "Parametric",
    "Pointiness", "Random Per Island"]

def mixNode (dataType : String) : Node :=
  withSettings [("blend_type", .text "MIX"), ("clamp_factor", .flag true),
      ("clamp_result", .flag true), ("data_type", .text dataType), ("factor_mode", .text "UNIFORM")]
    (node "MIX" [half "0", vector "1" [0.5, 0.5, 0.5], half "2", half "3",
      vector "4" [0.5, 0.5, 0.5], vector "5" [0.5, 0.5, 0.5], sand "6", sand "7"] [half "Result"])

def convertedNodes (i : Nat) : List Node :=
  [outputNode,
    principledNode .plain,
    withSettings [("clamp", .flag (i % 2 == 1)),
        ("interpolation_type", .text (cycle ["LINEAR", "STEPPED", "SMOOTHSTEP", "SMOOTHERSTEP"] i))]
      (node "MAP_RANGE" (["Value", "From Min", "From Max", "To Min", "To Max", "Steps"].map half)
        [half "Result"]),
    withSettings [("clamp_type", .text (cycle ["RANGE", "MINMAX"] i))]
      (node "CLAMP" [half "Value", half "Min", half "Max"] [half "Result"]),
    node "SEPXYZ" [vector "Vector" [0.1, 0.2, 0.3]] [half "X", half "Y", half "Z"],
    mixNode (cycle ["FLOAT", "VECTOR", "RGBA"] i),
    node "NEW_GEOMETRY" [] (geometryOutputs.map computed)]

def emittedOutputs : List Nat := [0, 1, 5, 4]

def convertedMaterial (i : Nat) : Shaded :=
  ⟨definition ("Conv." ++ toString i) i, tree (convertedNodes i)
    [⟨4, 0, 3, 0⟩, ⟨3, 0, 2, 0⟩, ⟨2, 0, 1, 1⟩, ⟨5, 0, 1, 2⟩, ⟨6, cycle emittedOutputs i, 1, 5⟩,
      ⟨1, 0, 0, 0⟩]⟩

end SceneExchange.Workload
