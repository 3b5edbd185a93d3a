import SceneExchange.Graph.Node

/-!
# Building node trees

Sockets with the defaults that the trees of workloads have, and trees from their nodes and links.
-/

namespace SceneExchange.Workload

open SceneExchange.Graph

def socket (name : String) (kind : SocketKind) (value : SocketValue) : Socket :=
  ⟨name, kind, value, name, true, kind == .vector⟩

def number (name : String) (x : Float) : Socket := socket name .value (.single (.real x))

def half (name : String) : Socket := number name 0.5

def color (name : String) (components : List Float) : Socket :=
  socket name .color (.tuple (components.map .real))

def sand (name : String) : Socket := color name [0.8, 0.6, 0.4, 1.0]

def computed (name : String) : Socket :=
  socket name .vector (.array [.real 0.0, .real 0.0, .real 0.0])

def vector (name : String) (components : List Float) : Socket :=
  socket name .vector (.vector components)

def shader (name : String) : Socket := socket name .shader (.single .null)

def node (kind : String) (inputs outputs : List Socket) : Node where
  kind := kind
  name := kind
  label := ""
  inputs := inputs
  outputs := outputs
  settings := .empty
  image := .absent
  tree := .absent
  ramp := .absent
  curves := .absent
  mapping := .neutral

def labelled (label : String) (n : Node) : Node := { n with label := label }

def withSettings (settings : List (String × Datum)) (n : Node) : Node :=
  { n with settings := .ofList settings }

def tree (nodes : List Node) (links : List Link) : Tree :=
  ⟨nodes.toArray, links, .ofList [("ALL", 0)]⟩

def outputNode : Node :=
  node "OUTPUT_MATERIAL" [shader "Surface", shader "Volume", computed "Displacement"] []

structure Finish where
  alpha : Float
  emission : Float
  coat : Float

namespace Finish

def plain : Finish := ⟨1.0, 1.0, 0.0⟩

end Finish

def principledNode (f : Finish) : Node :=
  node "BSDF_PRINCIPLED"
    [sand "Base Color", half "Metallic", half "Roughness", half "Specular IOR Level",
      number "Alpha" f.alpha, sand "Emission Color", number "Emission Strength" f.emission,
      number "Coat Weight" f.coat, half "Coat Roughness", computed "Normal"]
    [shader "BSDF"]

def cycle {α : Type} [Inhabited α] (items : List α) (i : Nat) : α :=
  items[i % items.length]?.getD default

end SceneExchange.Workload
