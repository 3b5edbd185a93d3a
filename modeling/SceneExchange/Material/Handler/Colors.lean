import SceneExchange.Material.Curves
import SceneExchange.Material.Handler.Basic

/-!
# Handlers of color nodes
-/

namespace SceneExchange.Material.Handlers

open SceneExchange.Graph Compile

def brightContrast : Handler := fun visit out => do
  emitRef (.call (Function.content "BrightContrast")
    (← visit.inputs (nodeOf out) [("0", "Color"), ("1", "Bright"), ("2", "Contrast")]))

def gamma : Handler := fun visit out => do
  emitRef (.plain "Power" (← visit.inputs (nodeOf out) [("0", "Color"), ("1", "Gamma")]))

def hueSaturation : Handler := fun visit out => do
  let parts ← visit.inputs (nodeOf out)
    [("0", "Hue"), ("1", "Saturation"), ("2", "Value"), ("3", "Fac"), ("4", "Color")]
  refOutput (← emit (.call (Function.content "AdjustHSV") parts)) 0

def invert : Handler := fun visit out => do
  let node := nodeOf out
  let color ← visit.named node "Color"
  let inverted ← emit (.plain "OneMinus" [← input "0" color])
  let factor ← visit.named node "Fac"
  let first ← input "0" color
  let third ← input "2" factor
  emitRef (.plain "LinearInterpolate" [first, directInput "1" inverted 0, third])

/-- Refers to the operand of the strength as if it were the position of an expression. -/
def lightFalloff : Handler := fun visit out => do
  warnOnce "Unsupported node 'Light Falloff', returning unmodified light strength"
  let strength ← visit.named (nodeOf out) "Strength"
  newBundle [("expression", strength)]

def saturate (e : Int) : Compile Int := emit (.plain "Saturate" [directInput "0" e 0])

def saturateIf (condition : Bool) (e : Int) : Compile Int := if condition then saturate e else pure e

def mixColors : Handler := fun visit out => do
  let node := nodeOf out
  let factor ← visit.named node "Fac"
  let limited ← emit (.plain "Saturate" (← optionalInput "0" factor))
  let a ← visit.named node "Color1"
  let b ← visit.named node "Color2"
  let path ← choose Function.blends (← setting out "blend_type")
  let first ← optionalInput "1" a
  let second ← optionalInput "2" b
  let blended ← emit (.call path (directInput "0" limited 0 :: (first ++ second)))
  refOutput (← saturateIf (← setting out "use_clamp").holds blended) 0

def textureObject (name : Datum) : Compile Int :=
  emit ⟨"TextureObject", [], [.element (.leaf "Input"
    [("name", .text "Texture"), ("type", .text "Texture"), ("val", name)])]⟩

def curveInputs (number : Int) : Compile (List Part) := do
  let number ← emitScalar (.int number)
  let size ← emitScalar (.int curvesSize)
  let texture ← textureObject (.text curvesName)
  pure [directInput "1" number 0, directInput "2" size 0, directInput "3" texture 0]

def lookUp (path : String) (o : Operand) (number : Int) : Compile Int := do
  let first ← input "0" o
  let parts ← curveInputs number
  emit (.call path (first :: parts))

def enterCurves : Slot (List Curve) → Compile Int
  | .absent => fail (.noProperty "Node" "mapping")
  | .empty => fail (.propertyOfNothing "initialize")
  | .given cs => addCurve (.curves cs)

def enterRamp : Slot Ramp → Compile Int
  | .absent => fail (.noProperty "Node" "color_ramp")
  | .empty => addBlankCurve
  | .given r => addCurve (.ramp r)

def curves : Handler := fun visit out => do
  let node := nodeOf out
  let number ← enterCurves (← theNode out).curves
  let factor ← visit.named node "Fac"
  let color ← visit.named node "Color"
  let looked ← lookUp (Function.content "RGBCurveLookup2") color number
  let first ← input "0" color
  let third ← input "2" factor
  refOutput (← emit (.plain "LinearInterpolate" [first, directInput "1" looked 0, third])) 0

def ramp : Handler := fun visit out => do
  let number ← enterRamp (← theNode out).ramp
  let level ← visit.named (nodeOf out) "Fac"
  refOutput (← lookUp (Function.content "ColorRamp") level number) 0

def colorHandler? : String → Option Handler
  | "BRIGHTCONTRAST" => some brightContrast
  | "GAMMA" => some gamma
  | "HUE_SAT" => some hueSaturation
  | "INVERT" => some invert
  | "LIGHT_FALLOFF" => some lightFalloff
  | "MIX_RGB" => some mixColors
  | "CURVE_RGB" => some curves
  | "VALTORGB" => some ramp
  | _ => none

end SceneExchange.Material.Handlers
