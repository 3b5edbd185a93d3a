import SceneExchange.Number.Mixed
import SceneExchange.Scene.Basic

/-!
# Transforms of objects

The matrix that is written for an object, and its text. Cameras and lights are turned forward;
a kind of object counts as a camera when its name is part of that of cameras. Probes are scaled to
the size of their influence.
-/

namespace SceneExchange.Scene

open SceneExchange.Geometry Number

def occursIn (part : List Char) : List Char → Bool
  | [] => part.isEmpty
  | c :: rest => part.isPrefixOf (c :: rest) || occursIn part rest

def looks (kind : String) : Bool := occursIn kind.toList "CAMERA".toList || kind == "LIGHT"

def isText (d : Datum) (s : String) : Bool :=
  match d with
  | .text t => t == s
  | _ => false

def probeScale (p : Settings) : Except Fault (Option Float) := do
  let kind ← p.field "type"
  if isText kind "PLANAR" then pure (some 0.05)
  else if isText kind "CUBEMAP" then
    if isText (← p.field "influence_type") "BOX" then
      let distance ← Mixed.ofDatum (← p.field "influence_distance")
      pure (some (← (← distance.mul (.whole 100)).toFloat))
    else pure none
  else pure none

def writtenMatrix (s : Scene) (o : Object) (m : Matrix Float) : Except Fault (Matrix Float) := do
  let view ← toEngineView (looks o.kind) m
  if !looks o.kind && o.kind == "LIGHT_PROBE" then
    match ← probeScale (← s.settingsOf o "type") with
    | some f => pure (view * Matrix.scale f)
    | none => pure view
  else pure view

def placementText (p : Placement) : String :=
  let attr (name : String) (x : Float) := " " ++ name ++ "=\"" ++ six x ++ "\""
  "\t<Transform" ++ attr "tx" p.location.x ++ attr "ty" p.location.y ++ attr "tz" p.location.z ++
    attr "qw" p.rotation.w ++ attr "qx" p.rotation.x ++ attr "qy" p.rotation.y ++
    attr "qz" p.rotation.z ++ attr "sx" p.scale.x ++ attr "sy" p.scale.y ++ attr "sz" p.scale.z ++
    "/>\n"

def transformText (s : Scene) (o : Object) (m : Matrix Float) : Except Fault String := do
  pure (placementText (← s.writtenMatrix o m).decompose)

def localMatrix (s : Scene) (i : Instance) : Except Fault (Matrix Float) := do
  let m ← s.instanceMatrix i
  let parent ← match i.parent with
    | some p => pure (some p)
    | none => do pure (← s.demand i.object "parent").parent
  let m ← relativeTo (parent.map fun p => (s.object p).matrix) m
  let o ← s.demand i.object "type"
  toEngineView (o.kind == "CAMERA" || o.kind == "LIGHT") m

def unusedId : Int := 0x7FFFFFFF

def chainNames (s : Scene) : Nat → Option Nat → List String
  | 0, _ => []
  | _, none => []
  | fuel + 1, some p => (s.object p).name :: chainNames s fuel (s.object p).parent

def instanceName (s : Scene) (i : Instance) : Except Fault String := do
  let ids := String.join (i.ids.map fun id => if id == unusedId then "_" else "_" ++ toString id)
  let parents := "_".intercalate (s.chainNames (s.objects.size + 1) i.parent)
  pure (parents ++ "_" ++ (← s.demand i.instanced "name").name ++ "_" ++ ids)

end SceneExchange.Scene
