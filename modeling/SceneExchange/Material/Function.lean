/-!
# Names of library functions

Functions that expressions call by path: those of the content library and those of the engine.
-/

namespace SceneExchange.Material.Function

def content (name : String) : String := "/DatasmithBlenderContent/MaterialFunctions/" ++ name

def passthrough : String := content "Passthrough"

def flipY : String := content "FlipY"

def generatedCoordinates : String := content "TexCoord_Generated"

def toGray : String := content "RGB_To_BW"

def combineRgb : String := content "CombineRGB"

def hsvToRgb : String := content "HSV_To_RGB"

def rgbToHsv : String := content "RGB_To_HSV"

def separateRgb : String := content "SeparateRGB"

def makeFloat3 : String := "/Engine/Functions/Engine_MaterialFunctions02/Utility/MakeFloat3"

def breakFloat3 : String :=
  "/Engine/Functions/Engine_MaterialFunctions02/Utility/BreakOutFloat3Components"

def ditherTemporal : String :=
  "/Engine/Functions/Engine_MaterialFunctions02/Utility/DitherTemporalAA"

abbrev Choices := List (String × String)

def mappings : Choices :=
  [("NORMAL", content "MappingNormal"), ("POINT", content "MappingPoint3D"),
    ("TEXTURE", content "MappingTexture3D"), ("VECTOR", content "MappingVector")]

def dimensions : Choices := [("1D", "1d"), ("2D", "2d"), ("3D", "3d"), ("4D", "4d")]

def gradients : Choices :=
  [("LINEAR", content "TexGradient_Linear"), ("QUADRATIC", content "TexGradient_Quadratic"),
    ("EASING", content "TexGradient_Easing"), ("DIAGONAL", content "TexGradient_Diagonal"),
    ("SPHERICAL", content "TexGradient_Spherical"),
    ("QUADRATIC_SPHERE", content "TexGradient_QuadraticSphere"),
    ("RADIAL", content "TexGradient_Radial")]

def musgraves : Choices :=
  [("MULTIFRACTAL", "multi_fractal"), ("RIDGED_MULTIFRACTAL", "ridged_multi_fractal"),
    ("HYBRID_MULTIFRACTAL", "hybrid_multi_fractal"), ("FBM", "fBm"),
    ("HETERO_TERRAIN", "hetero_terrain")]

def voronois : Choices :=
  [("F1", "f1"), ("F2", "f2"), ("SMOOTH_F1", "smooth_f1"),
    ("DISTANCE_TO_EDGE", "distance_to_edge"), ("N_SPHERE_RADIUS", "n_sphere_radius")]

def blends : Choices :=
  [("MIX", content "Blend_Mix"), ("DARKEN", content "Blend_Darken"),
    ("MULTIPLY", content "Blend_Multiply"), ("BURN", content "Blend_ColorBurn"),
    ("LIGHTEN", content "Blend_Lighten"), ("SCREEN", content "Blend_Screen"),
    ("DODGE", content "Blend_Dodge"), ("ADD", content "Blend_Add"),
    ("OVERLAY", content "Blend_Overlay"), ("SOFT_LIGHT", content "Blend_SoftLight"),
    ("LINEAR_LIGHT", content "Blend_LinearLight"), ("DIFFERENCE", content "Blend_Difference"),
    ("EXCLUSION", content "Blend_Exclusion"), ("SUBTRACT", content "Blend_Subtract"),
    ("DIVIDE", content "Blend_Divide"), ("HUE", content "Blend_Hue"),
    ("SATURATION", content "Blend_Saturation"), ("COLOR", content "Blend_Color"),
    ("VALUE", content "Blend_Value")]

def spaces : Choices := [("WORLD", "World"), ("CAMERA", "Camera"), ("OBJECT", "Object")]

def binaryMath : Choices :=
  [("ADD", "Add"), ("SUBTRACT", "Subtract"), ("MULTIPLY", "Multiply"), ("DIVIDE", "Divide"),
    ("POWER", "Power"), ("MINIMUM", "Min"), ("MAXIMUM", "Max"), ("MODULO", "Fmod"),
    ("ARCTAN2", "Arctangent2")]

def unaryMath : Choices :=
  [("SQRT", "SquareRoot"), ("ABSOLUTE", "Abs"), ("ROUND", "Round"), ("FLOOR", "Floor"),
    ("CEIL", "Ceil"), ("FRACT", "Frac"), ("SINE", "Sine"), ("COSINE", "Cosine"),
    ("TANGENT", "Tangent"), ("ARCSINE", "Arcsine"), ("ARCCOSINE", "Arccosine"),
    ("ARCTANGENT", "Arctangent"), ("SIGN", "Sign"), ("TRUNC", "Truncate")]

def calledMath : List (String × Nat × String) :=
  [("INVERSE_SQRT", 1, content "MathInvSqrt"), ("EXPONENT", 1, content "MathExp"),
    ("SINH", 1, content "MathSinH"), ("COSH", 1, content "MathCosH"),
    ("TANH", 1, content "MathTanH"), ("MULTIPLY_ADD", 3, content "MathMultiplyAdd"),
    ("COMPARE", 3, content "MathCompare"), ("SMOOTH_MIN", 3, content "MathSmoothMin"),
    ("SMOOTH_MAX", 3, content "MathSmoothMax"), ("WRAP", 3, content "MathWrap"),
    ("SNAP", 2, content "MathSnap"), ("PINGPONG", 2, content "MathPingPong")]

def vectorAsScalar : List String :=
  ["ADD", "SUBTRACT", "MULTIPLY", "DIVIDE", "ABSOLUTE", "MINIMUM", "MAXIMUM", "FLOOR", "CEIL",
    "MODULO", "SINE", "COSINE", "TANGENT"]

def vectorMath : List (String × Nat × String) :=
  [("CROSS_PRODUCT", 2, "CrossProduct"), ("DOT_PRODUCT", 2, "DotProduct"),
    ("DISTANCE", 2, "Distance"), ("NORMALIZE", 1, "Normalize"), ("FRACTION", 1, "Frac")]

def calledVectorMath : List (String × Nat × String) :=
  [("WRAP", 3, content "VectWrap"), ("SNAP", 2, content "VectSnap"),
    ("PROJECT", 2, content "VectProject"), ("REFLECT", 2, content "VectReflect")]

end SceneExchange.Material.Function
