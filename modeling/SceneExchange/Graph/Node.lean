import SceneExchange.Graph.Socket
import SceneExchange.Geometry.Placement
import SceneExchange.Table

/-!
# Shader nodes and node trees

Trees are kept in one array and refer to each other by position, so that a tree used by several
group nodes is one tree. A socket is named by tree, node and position.
-/

namespace SceneExchange.Graph

/-- A color ramp, as the host evaluates it. -/
structure Ramp where
  evaluate : Float → List Float

instance : Inhabited Ramp := ⟨⟨fun _ => []⟩⟩

/-- One of the curves of a mapping, as the host evaluates it. -/
structure Curve where
  evaluate : Float → Float
  deriving Inhabited

structure TextureMapping where
  axisX : Datum
  axisY : Datum
  axisZ : Datum
  location : List Float
  rotation : List Float
  scale : List Float
  vectorType : Datum
  deriving Inhabited

namespace TextureMapping

def neutral : TextureMapping where
  axisX := .text "X"
  axisY := .text "Y"
  axisZ := .text "Z"
  location := [0.0, 0.0, 0.0]
  rotation := [0.0, 0.0, 0.0]
  scale := [1.0, 1.0, 1.0]
  vectorType := .text "POINT"

end TextureMapping

inductive Slot (α : Type) where
  | absent
  | empty
  | given (a : α)
  deriving Inhabited

structure Node where
  kind : String
  name : String
  label : String
  inputs : List Socket
  outputs : List Socket
  settings : Table String Datum
  image : Slot Nat
  tree : Slot Nat
  ramp : Slot Ramp
  curves : Slot (List Curve)
  mapping : TextureMapping
  deriving Inhabited

structure Link where
  fromNode : Nat
  fromOutput : Nat
  toNode : Nat
  toInput : Nat
  deriving Repr, DecidableEq, Inhabited

structure Tree where
  nodes : Array Node
  links : List Link
  outputs : Table String Nat
  deriving Inhabited

structure SocketRef where
  tree : Nat
  node : Nat
  socket : Nat
  deriving Repr, DecidableEq, Inhabited

structure NodeRef where
  tree : Nat
  node : Nat
  deriving Repr, DecidableEq, Inhabited

structure Forest where
  trees : Array Tree
  deriving Inhabited

namespace Forest

def tree (f : Forest) (t : Nat) : Tree := f.trees[t]?.getD default

def node (f : Forest) (r : NodeRef) : Node := (f.tree r.tree).nodes[r.node]?.getD default

def inputSocket (f : Forest) (p : SocketRef) : Socket :=
  (f.node ⟨p.tree, p.node⟩).inputs[p.socket]?.getD default

def outputSocket (f : Forest) (p : SocketRef) : Socket :=
  (f.node ⟨p.tree, p.node⟩).outputs[p.socket]?.getD default

def linksTo (f : Forest) (p : SocketRef) : List Link :=
  (f.tree p.tree).links.filter fun l => l.toNode == p.node && l.toInput == p.socket

def source? (f : Forest) (p : SocketRef) : Option SocketRef :=
  (f.linksTo p).head?.map fun l => ⟨p.tree, l.fromNode, l.fromOutput⟩

def isLinked (f : Forest) (p : SocketRef) : Bool := !(f.linksTo p).isEmpty

def nodeCount (f : Forest) : Nat := f.trees.foldl (fun n t => n + t.nodes.size) 0

def inputAt (f : Forest) (r : NodeRef) (i : Nat) : Except Fault SocketRef :=
  let size := (f.node r).inputs.length
  if i < size then .ok ⟨r.tree, r.node, i⟩ else .error (.memberOutOfRange i size)

def inputNamed? (f : Forest) (r : NodeRef) (name : String) : Option SocketRef :=
  ((f.node r).inputs.findIdx? (·.name == name)).map fun i => ⟨r.tree, r.node, i⟩

def inputNamed (f : Forest) (r : NodeRef) (name : String) : Except Fault SocketRef :=
  match f.inputNamed? r name with
  | some p => .ok p
  | none => .error (.unknownMember name)

def outputNode? (f : Forest) (t : Nat) : Option NodeRef :=
  let outputs := (f.tree t).outputs
  let pick (target : String) := (outputs.get? target).map fun n => (⟨t, n⟩ : NodeRef)
  pick "EEVEE" <|> pick "ALL" <|> pick "CYCLES"

end Forest

namespace Node

def setting (n : Node) (name : String) : Except Fault Datum :=
  match n.settings.get? name with
  | some d => .ok d
  | none => .error (.noProperty "Node" name)

end Node

end SceneExchange.Graph
