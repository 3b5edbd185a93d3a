import SceneExchange.Import.Reading

/-!
# Reading actors
-/

namespace SceneExchange.Import

open Markup (Tag)

namespace Importing

def component (tag : Tag) (key : String) : Importing (Option Float) := do
  discard (realAttribute tag key)
  pure none

def pose (tag : Tag) : Importing Pose := do
  let location ← ["tx", "ty", "tz"].mapM (component tag)
  let rotation ← ["qw", "qx", "qy", "qz"].mapM (component tag)
  let scale ← ["sx", "sy", "sz"].mapM (component tag)
  pure ⟨location, rotation, scale⟩

def transform (tag : Tag) : Importing Pose := do
  let p ← pose tag
  let m ← next
  expect m.ends
  expect (m.tag.place == tag.place)
  pure p

end Importing

def isActor (tag : String) : Bool := ["Actor", "ActorMesh", "Camera", "Light"].contains tag

inductive ActorPart where
  | pose | tag | children | mesh | material | number | word | color | other
  deriving Repr, DecidableEq

namespace ActorPart

def isNumber (kind part : String) : Bool :=
  match kind with
  | "Camera" =>
    ["SensorWidth", "SensorAspectRatio", "FocusDistance", "FStop", "FocalLength"].contains part
  | "Light" => ["SourceSize", "Intensity", "AttenuationRadius"].contains part
  | _ => false

def of (kind part : String) : ActorPart :=
  if !isActor kind then other
  else if part == "Transform" then pose
  else if part == "children" then children
  else if isNumber kind part then number
  else match kind, part with
    | "Actor", "tag" => tag
    | "ActorMesh", "tag" => tag
    | "ActorMesh", "mesh" => mesh
    | "ActorMesh", "material" => material
    | "Light", "Color" => color
    | "Light", "IntensityUnits" => word
    | _, _ => other

end ActorPart

namespace Importing

def actorPart (part : ActorPart) (a : ActorData) (tag : Tag) : Importing ActorData := do
  match part with
  | .tag | .children | .other => do
    ignore tag
    pure a
  | .pose => do
    close tag
    pure { a with pose := some (← pose tag) }
  | .mesh => do
    close tag
    pure { a with mesh := some (← attributeOf tag "name") }
  | .material => do
    close tag
    let slot ← integerAttribute tag "id"
    pure { a with overrides := a.overrides.insert slot (← attributeOf tag "name") }
  | .number => do
    close tag
    pure { a with numbers := a.numbers.insert tag.name (.real (← realAttribute tag "value")) }
  | .word => do
    close tag
    pure { a with words := a.words.insert tag.name (← attributeOf tag "value") }
  | .color => do
    close tag
    let parts ← ["R", "G", "B"].mapM (realAttribute tag)
    pure { a with color := some (.tuple (parts.map .real)) }

def actorWithin : (fuel : Nat) → Tag → Importing Actor
  | 0, _ => throw .endOfEvents
  | fuel + 1, tag => do
    let name ← attributeOf tag "name"
    let lightKind ← if tag.name == "Light" then do pure (some (← attributeOf tag "type"))
      else pure none
    let start : ActorData := { name := name, kind := tag.name, lightKind := lightKind }
    let (data, below) ← children tag (start, #[]) fun (data, below) child =>
      match ActorPart.of tag.name child.name with
      | .children => do
        pure (data, ← children child below fun below grandchild => do
          pure (below.push (← actorWithin fuel grandchild)))
      | part => do pure (← actorPart part data child, below)
    pure (.mk data below.toList)

def actor (tag : Tag) : Importing Actor := do
  actorWithin ((← get).marks.length + 1) tag

end Importing

end SceneExchange.Import
