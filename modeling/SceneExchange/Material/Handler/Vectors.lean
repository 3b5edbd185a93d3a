import SceneExchange.Material.Handler.Basic

/-!
# Handlers of vector nodes
-/

namespace SceneExchange.Material.Handlers

open SceneExchange.Graph Compile

def bump : Handler := fun visit out => do
  let node := nodeOf out
  let sign ← emitReal (signFor (← setting out "invert"))
  let fields ← within bumpContext
    (visit.optionalInputs node [("1", "Strength"), ("2", "Distance"), ("3", "Height")])
  let normal ← optionalInput "4" (← visit.namedSilent node "Normal")
  emitRef (.call (Function.content "Bump") (directInput "0" sign 0 :: (fields ++ normal)))

def mapping : Handler := fun visit out => do
  let node := nodeOf out
  let vectorType ← setting out "vector_type"
  let path ← choose Function.mappings vectorType
  let vector ← visit.named node "Vector"
  let rotation ← visit.named node "Rotation"
  let scale ← visit.named node "Scale"
  let first ← input "0" vector
  let location ← membersIf (!(isText vectorType "NORMAL" || isText vectorType "VECTOR"))
    (visit.inputs node [("1", "Location")])
  let third ← input "2" rotation
  let fourth ← input "3" scale
  emitRef (.call path (first :: (location ++ [third, fourth])))

def normal : Handler := stationed fun visit out => do
  let forest ← read
  let direction ← emitVectorValue (forest.outputSocket { out with socket := 0 }).value
  let second ← optionalInput "1" (← visit.nth (nodeOf out) 0)
  let e ← emit (.call (Function.content "Normal") (directInput "0" direction 0 :: second))
  pure ⟨e, texts ["Normal", "Dot"]⟩

def normalMap : Handler := fun visit out => do
  let node := nodeOf out
  let strength ← visit.named node "Strength"
  let field ← lift ((← read).inputNamed node "Color")
  let color ← within normalContext (visit field .normal)
  let first ← optionalInput "0" strength
  let second ← optionalInput "1" color
  emitRef (.call (Function.content "NormalStrength") (first ++ second))

def sameSetting : Datum → Datum → Bool
  | .text a, .text b => a == b
  | .null, .null => true
  | .flag a, .flag b => a == b
  | .int a, .int b => a == b
  | .real a, .real b => a == b
  | _, _ => false

def vectorTransform : Handler := fun visit out => do
  let vector ← visit.nth (nodeOf out) 0
  let origin ← setting out "convert_from"
  let target ← setting out "convert_to"
  if sameSetting origin target then pure vector
  else
    let origin ← choose Function.spaces origin
    let target ← choose Function.spaces target
    let first ← optionalInput "0" vector
    let vectorType ← setting out "vector_type"
    let output ← position ["POINT", "VECTOR", "NORMAL"] vectorType
    onlyIf (isText vectorType "NORMAL")
      (warnOnce "Unsupported vector type:Normal in Vector Transform node. FIXME")
    let path := Function.content ("VectorTransform" ++ origin ++ "To" ++ target)
    refOutput (← emit (.call path first)) output

def rotationAxis (visit : Visit) (node : NodeRef) (rotationType : Datum) : Compile (List Part) := do
  if isText rotationType "X_AXIS" then pure [directInput "3" (← emitTriple 1.0 0.0 0.0) 0]
  else if isText rotationType "Y_AXIS" then pure [directInput "3" (← emitTriple 0.0 1.0 0.0) 0]
  else if isText rotationType "Z_AXIS" then pure [directInput "3" (← emitTriple 0.0 0.0 1.0) 0]
  else optionalInput "3" (← visit.namedForced node "Axis")

def vectorRotate : Handler := fun visit out => do
  let node := nodeOf out
  let rotationType ← setting out "rotation_type"
  let isEuler := isText rotationType "EULER_XYZ"
  let sign ← emitReal (signFor (← setting out "invert"))
  let vector ← optionalInput "1" (← visit.named node "Vector")
  let center ← optionalInput "2" (← visit.namedForced node "Center")
  let head := directInput "0" sign 0 :: (vector ++ center)
  if isEuler then
    let rotation ← optionalInput "3" (← visit.named node "Rotation")
    emitRef (.call (Function.content "VectorRotateEulerAngles") (head ++ rotation))
  else
    let axis ← rotationAxis visit node rotationType
    let angle ← optionalInput "4" (← visit.named node "Angle")
    emitRef (.call (Function.content "VectorRotateAngleAxis") (head ++ axis ++ angle))

def vectorHandler? : String → Option Handler
  | "BUMP" => some bump
  | "MAPPING" => some mapping
  | "NORMAL" => some normal
  | "NORMAL_MAP" => some normalMap
  | "VECT_TRANSFORM" => some vectorTransform
  | "VECTOR_ROTATE" => some vectorRotate
  | _ => none

end SceneExchange.Material.Handlers
