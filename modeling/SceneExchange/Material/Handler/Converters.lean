import SceneExchange.Material.Handler.Colors

/-!
# Handlers of converter nodes
-/

namespace SceneExchange.Material.Handlers

open SceneExchange.Graph Compile

def blackbody : Handler := fun visit out => do
  emitRef (.plain "BlackBody" (← visit.firstInputs (nodeOf out) 1))

def clamp : Handler := fun visit out => do
  let node := nodeOf out
  let clampType ← setting out "clamp_type"
  let value ← visit.named node "Value"
  let least ← visit.named node "Min"
  let greatest ← visit.named node "Max"
  if isText clampType "MINMAX" then
    let first ← input "0" value
    let second ← input "1" least
    let third ← input "2" greatest
    emitRef (.plain "Clamp" [first, second, third])
  else if isText clampType "RANGE" then
    let lower := [← input "0" least, ← input "1" greatest]
    let upper := [← input "0" least, ← input "1" greatest]
    let first ← input "0" value
    let lower ← emit (.plain "Min" lower)
    let upper ← emit (.plain "Max" upper)
    emitRef (.plain "Clamp" [first, directInput "1" lower 0, directInput "2" upper 0])
  else
    write .error ("unsupported clamp type " ++ clampType.display)
    emitRef (.plain "Clamp" [])

def combineXyz : Handler := fun visit out => do
  emitRef (.call Function.makeFloat3 (← visit.firstInputs (nodeOf out) 3))

def combineRgb : Handler := fun visit out => do
  emitRef (.call Function.combineRgb (← visit.firstInputs (nodeOf out) 3))

def combineHsv : Handler := fun visit out => do
  emitRef (.call Function.hsvToRgb (← visit.firstOptionalInputs (nodeOf out) 3))

def combineColor : Handler := fun visit out => do
  let path ← choose [("RGB", Function.combineRgb), ("HSV", Function.hsvToRgb)]
    (← setting out "mode")
  emitRef (.call path (← visit.firstOptionalInputs (nodeOf out) 3))

def separateXyz : Handler := stationed fun visit out => do
  let e ← emit (.call Function.breakFloat3 (← visit.firstInputs (nodeOf out) 1))
  pure ⟨e, texts ["X", "Y", "Z"]⟩

def separateRgb : Handler := stationed fun visit out => do
  let e ← emit (.call Function.separateRgb (← visit.firstInputs (nodeOf out) 1))
  pure ⟨e, texts ["R", "G", "B"]⟩

def separateHsv : Handler := stationed fun visit out => do
  let e ← emit (.call Function.rgbToHsv (← visit.firstOptionalInputs (nodeOf out) 1))
  pure ⟨e, texts ["H", "S", "V"]⟩

def separateColor : Handler := stationed fun visit out => do
  let path ← choose [("RGB", Function.breakFloat3), ("HSV", Function.rgbToHsv)]
    (← setting out "mode")
  let e ← emit (.call path (← visit.firstOptionalInputs (nodeOf out) 1))
  pure ⟨e, texts ["Red", "Green", "Blue"]⟩

def grayscale : Handler := fun visit out => do
  emitRef (.call Function.toGray (← visit.firstOptionalInputs (nodeOf out) 1))

def interpolationName (out : SocketRef) (interpolation : Datum) : Compile String := do
  if isText interpolation "LINEAR" then
    pure (if (← setting out "clamp").holds then "Linear_Clamped" else "Linear")
  else if isText interpolation "STEPPED" then
    pure (if (← setting out "clamp").holds then "Stepped_Clamped" else "Stepped")
  else if isText interpolation "SMOOTHSTEP" then pure "SmoothStep"
  else if isText interpolation "SMOOTHERSTEP" then pure "SmootherStep"
  else fail (.violated "")

def mapRange : Handler := fun visit out => do
  let node := nodeOf out
  let interpolation ← setting out "interpolation_type"
  let suffix ← interpolationName out interpolation
  let operands ← ["Value", "From Min", "From Max", "To Min", "To Max"].mapM (visit.named node)
  let parts ← numberedInputs operands
  let steps ← membersIf (isText interpolation "STEPPED") (visit.inputs node [("5", "Steps")])
  emitRef (.call (Function.content ("MapRange_" ++ suffix)) (parts ++ steps))

def compareOperation (first second : Operand) (greater equal less : Float) :
    Compile Expression := do
  let one ← emitReal 1.0
  let zero ← emitReal 0.0
  let branch (slot : String) (x : Float) := directInput slot (if x == 1.0 then one else zero) 0
  let a ← input "0" first
  let b ← input "1" second
  pure (.plain "If" [a, b, branch "2" greater, branch "3" equal, branch "4" less])

def composedMath (visit : Visit) (node : NodeRef) (op : String) : Compile Expression := do
  let first ← visit.nth node 0
  match op with
  | "RADIANS" =>
    let a ← input "0" first
    pure (.plain "Multiply" [a, directInput "1" (← emitReal 0.017453292519943295) 0])
  | "DEGREES" =>
    let a ← input "0" first
    pure (.plain "Multiply" [a, directInput "1" (← emitReal 57.29577951308232) 0])
  | _ =>
    let second ← visit.nth node 1
    match op with
    | "LOGARITHM" =>
      let a ← emit (.plain "Logarithm2" [← input "0" first])
      let b ← emit (.plain "Logarithm2" [← input "0" second])
      pure (.plain "Divide" [directInput "0" a 0, directInput "1" b 0])
    | "LESS_THAN" => compareOperation first second 0.0 1.0 1.0
    | _ => compareOperation first second 1.0 0.0 0.0

def isComposed (op : String) : Bool :=
  ["LOGARITHM", "LESS_THAN", "GREATER_THAN", "RADIANS", "DEGREES"].contains op

def mathResult (visit : Visit) (node : NodeRef) (op : Datum) : Compile Operand := do
  match choice? Function.binaryMath op with
  | some tag => emitRef (.plain tag (← sliceInputs visit node 2 .forced))
  | none => match choice? Function.unaryMath op with
    | some tag => emitRef (.plain tag (← sliceInputs visit node 1 .forced))
    | none => match choice? Function.calledMath op with
      | some (count, path) => emitRef (.call path (← sliceInputs visit node count .normal))
      | none =>
        if isComposed op.display then emitRef (← composedMath visit node op.display)
        else fail (.violated ("unrecognized math operation: " ++ op.display))

def math : Handler := fun visit out => do
  let result ← mathResult visit (nodeOf out) (← setting out "operation")
  let limited := ((← theNode out).settings.get? "use_clamp").getD (.flag false)
  if limited.holds then emitRef (.plain "Saturate" [← input "0" result]) else pure result

def vectorMath : Handler := fun visit out => do
  let node := nodeOf out
  let op ← setting out "operation"
  if Function.vectorAsScalar.contains op.display then math visit out
  else match choice? Function.vectorMath op with
    | some (count, tag) => emitRef (.plain tag (← sliceInputs visit node count .forced))
    | none => match choice? Function.calledVectorMath op with
      | some (count, path) => emitRef (.call path (← sliceInputs visit node count .forced))
      | none =>
        if isText op "SCALE" then do
          let forest ← read
          let vector ← lift (forest.inputAt node 0)
          let factor ← lift (forest.inputAt node 3)
          let first ← input "0" (← visit vector .forced)
          let second ← input "1" (← visit factor .forced)
          emitRef (.plain "Multiply" [first, second])
        else if isText op "LENGTH" then do
          let first ← input "0" (← visit.nth node 0)
          let origin ← emitTriple 0.0 0.0 0.0
          emitRef (.plain "Distance" [first, directInput "1" origin 0])
        else do
          write .error ("VECT_MATH node operation:" ++ op.display ++ " not found")
          pure .none

def channel? (o : Operand) (name : String) : Compile Operand :=
  match o with
  | .bundle id => entry id name
  | .index _ => fail (.noProperty "int" "get")
  | .none => fail (.propertyOfNothing "get")

def shaderToRgb : Handler := fun visit out => do
  warnOnce "Unsupported material node 'Shader To RGB', lighting effects will be lost."
  let shader ← visit.nth (nodeOf out) 0
  let color ← channel? shader "BaseColor"
  let emissive ← channel? shader "EmissiveColor"
  match ← present color, ← present emissive with
  | true, true =>
    let first ← input "0" color
    let second ← input "1" emissive
    emitRef (.plain "Add" [first, second])
  | true, false => pure color
  | false, true => pure emissive
  | false, false => pure .none

def mixesByAxis (out : SocketRef) (dataType : Datum) : Compile Bool := do
  if isText dataType "VECTOR" then pure (isText (← setting out "factor_mode") "NON_UNIFORM")
  else pure false

def saturateOperand (condition : Bool) (o : Operand) : Compile Operand := do
  if condition then pure (.index (← emit (.plain "Saturate" (← optionalInput "0" o)))) else pure o

def interpolate (a b factor : Operand) : Compile Operand := do
  let first ← optionalInput "0" a
  let second ← optionalInput "1" b
  let third ← optionalInput "2" factor
  pure (.index (← emit (.plain "LinearInterpolate" (first ++ second ++ third))))

def blend (out : SocketRef) (a b factor : Operand) : Compile Operand := do
  let path ← choose Function.blends (← setting out "blend_type")
  let first ← optionalInput "0" factor
  let second ← optionalInput "1" a
  let third ← optionalInput "2" b
  let e ← emit (.call path (first ++ second ++ third))
  pure (.index (← saturateIf (← setting out "clamp_result").holds e))

def mix : Handler := fun visit out => do
  let node := nodeOf out
  let dataType ← setting out "data_type"
  let whole ← visit.nth node (if ← mixesByAxis out dataType then 1 else 0)
  let factor ← saturateOperand (← setting out "clamp_factor").holds whole
  if isText dataType "FLOAT" then
    interpolate (← visit.nth node 2) (← visit.nth node 3) factor
  else if isText dataType "VECTOR" then
    interpolate (← visit.nthForced node 4) (← visit.nthForced node 5) factor
  else if isText dataType "RGBA" then blend out (← visit.nth node 6) (← visit.nth node 7) factor
  else fail (.violated "")

def converterHandler? : String → Option Handler
  | "BLACKBODY" => some blackbody
  | "CLAMP" => some clamp
  | "COMBXYZ" => some combineXyz
  | "COMBRGB" => some combineRgb
  | "COMBHSV" => some combineHsv
  | "COMBINE_COLOR" => some combineColor
  | "SEPXYZ" => some separateXyz
  | "SEPRGB" => some separateRgb
  | "SEPHSV" => some separateHsv
  | "SEPARATE_COLOR" => some separateColor
  | "RGBTOBW" => some grayscale
  | "MAP_RANGE" => some mapRange
  | "MATH" => some math
  | "VECT_MATH" => some vectorMath
  | "SHADERTORGB" => some shaderToRgb
  | "MIX" => some mix
  | _ => none

end SceneExchange.Material.Handlers
