import SceneExchange.Color

/-!
# Shader nodes made in the editor

Each kind of node has its sockets, which are found by index or by name. An index below zero counts
from the end.
-/

namespace SceneExchange.Stage

inductive NodeKind where
  | principled | imageTexture | color | value | reroute | gray | mix | vectorMath | math | geometry
  | invert | normalMap | fresnel | uvMap
  deriving Repr, DecidableEq, Inhabited

namespace NodeKind

def title : NodeKind → String
  | principled => "Principled BSDF"
  | imageTexture => "ShaderNodeTexImage"
  | color => "ShaderNodeRGB"
  | value => "ShaderNodeValue"
  | reroute => "NodeReroute"
  | gray => "ShaderNodeRGBToBW"
  | mix => "ShaderNodeMixRGB"
  | vectorMath => "ShaderNodeVectorMath"
  | math => "ShaderNodeMath"
  | geometry => "ShaderNodeNewGeometry"
  | invert => "ShaderNodeInvert"
  | normalMap => "ShaderNodeNormalMap"
  | fresnel => "ShaderNodeFresnel"
  | uvMap => "ShaderNodeUVMap"

def outputs : NodeKind → List String
  | principled => ["BSDF"]
  | imageTexture => ["Color", "Alpha"]
  | color | mix | invert => ["Color"]
  | value | math => ["Value"]
  | reroute => ["Output"]
  | gray => ["Val"]
  | vectorMath => ["Vector", "Value"]
  | geometry => ["Position", "Normal", "Tangent", "True Normal", "Incoming", "Parametric",
      "Backfacing", "Pointiness", "Random Per Island"]
  | normalMap => ["Normal"]
  | fresnel => ["Fac"]
  | uvMap => ["UV"]

end NodeKind

def member? (size : Nat) (index : Int) : Option Nat :=
  if 0 ≤ index then if index.toNat < size then some index.toNat else none
  else if index.natAbs ≤ size then some (size - index.natAbs) else none

def memberAt (size : Nat) (index : Int) : Except Fault Nat :=
  match member? size index with
  | some i => .ok i
  | none => .error (.memberOutOfRange index size)

structure Socket where
  node : Nat
  place : Nat
  deriving Repr, DecidableEq, Inhabited

inductive SocketDefault where
  | real (x : Float)
  | color (c : Color)

structure Node where
  kind : NodeKind
  name : String
  label : String := ""
  operation : Option String := none
  image : Option (Option Nat) := none
  inputDefaults : List (Nat × SocketDefault) := []
  outputDefaults : List (Nat × SocketDefault) := []
  deriving Inhabited

def Node.ofKind (kind : NodeKind) : Node := { kind := kind, name := kind.title }

structure Link where
  source : Socket
  target : Socket
  deriving Repr, DecidableEq, Inhabited

structure Material where
  name : String
  usesNodes : Bool := false
  diffuse : Option (List Datum) := none
  blend : Option String := none
  nodes : Array Node := #[.ofKind .principled]
  links : Array Link := #[]
  deriving Inhabited

end SceneExchange.Stage
