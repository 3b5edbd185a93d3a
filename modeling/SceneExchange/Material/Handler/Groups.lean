import SceneExchange.Material.Handler.Basic

/-!
# Handlers of groups

A group is compiled anew for every use: its inputs first, in the surrounding tree, then the inner
output that matches the asked one, with tables of its own.
-/

namespace SceneExchange.Material.Handlers

open SceneExchange.Graph Compile

def captureInputs (visit : Visit) (r : NodeRef) : Compile (Table String (Operand × Bool)) := do
  let forest ← read
  let captured ← (forest.node r).inputs.zipIdx.mapM fun (socket, i) => do
    let field : SocketRef := ⟨r.tree, r.node, i⟩
    let o ← visit field .forced
    pure (socket.identifier, (o, forest.isLinked field))
  pure (Table.ofList captured)

def nextOutput (found : Option Nat) : Node × Nat → Except Fault (Option Nat)
  | (node, i) =>
    if node.kind == "GROUP_OUTPUT" then
      match node.settings.get? "is_active_output" with
      | none => .error (.noProperty "NodeGroupOutput" "is_active_output")
      | some active => .ok (if active.holds || found.isNone then some i else found)
    else .ok found

def groupOutput (nodes : List Node) : Except Fault (Option Nat) :=
  nodes.zipIdx.foldlM nextOutput none

def inputIdentified? (node : Node) (identifier : String) : Option Nat :=
  (node.inputs.zipIdx.reverse.find? fun (s, _) => s.identifier == identifier).map (·.2)

/-- Runs a computation with the given inputs of a group and with tables of its own; they stay when
it fails. -/
def insideGroup {α : Type} (captured : Table String (Operand × Bool)) (m : Compile α) : Compile α := do
  let outer ← get
  set { outer with groupInputs := captured, memo := [], nodeMemo := [], stations := [] }
  let a ← m
  modify fun s => { s with
    groupInputs := outer.groupInputs
    memo := outer.memo
    nodeMemo := outer.nodeMemo
    stations := outer.stations }
  pure a

def innerOutput (visit : Visit) (out : SocketRef) (tree : Option Nat) : Compile Operand := do
  let forest ← read
  match tree with
  | none => fail (.propertyOfNothing "nodes")
  | some t =>
    match ← lift (groupOutput (forest.tree t).nodes.toList) with
    | none =>
      write .error "group does not have output node!"
      fail (.propertyOfNothing "inputs")
    | some i =>
      match inputIdentified? (forest.node ⟨t, i⟩) (forest.outputSocket out).identifier with
      | none => fail (.violated "")
      | some j => visit ⟨t, i, j⟩ .normal

def groupTree : Slot Nat → Except Fault (Option Nat)
  | .absent => .error (.noProperty "Node" "node_tree")
  | .empty => .ok none
  | .given t => .ok (some t)

def group : Handler := fun visit out => do
  let tree ← lift (groupTree (← theNode out).tree)
  let captured ← captureInputs visit (nodeOf out)
  insideGroup captured (innerOutput visit out tree)

/-- The operand of an input of the surrounding group. An unlinked input gives nothing to a plain
vector field with computed coordinates. -/
def groupInput (out field : SocketRef) : Compile Operand := do
  let forest ← read
  let identifier := (forest.outputSocket out).identifier
  match (← get).groupInputs.get? identifier with
  | none => fail (.missingKey (.text identifier))
  | some (o, linked) =>
    let target := forest.inputSocket field
    if target.plainVector && target.value.isArray && !linked then pure .none else pure o

end SceneExchange.Material.Handlers
