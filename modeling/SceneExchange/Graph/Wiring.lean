import SceneExchange.Graph.Node

/-!
# Wiring of trees

A tree is well wired when every link joins an output and an input that exist, in the tree itself
and in the trees that its group nodes stand for.
-/

namespace SceneExchange.Graph

namespace Tree

def checkLink (t : Tree) (l : Link) : Except Fault Unit := do
  let outputs := (t.nodes[l.fromNode]?.getD default).outputs.length
  if outputs ≤ l.fromOutput then throw (.memberOutOfRange l.fromOutput outputs)
  let inputs := (t.nodes[l.toNode]?.getD default).inputs.length
  if inputs ≤ l.toInput then throw (.memberOutOfRange l.toInput inputs)

end Tree

namespace Forest

def checkWiring (f : Forest) : Nat → Nat → Except Fault Unit
  | 0, _ => .ok ()
  | depth + 1, t => do
    let tree := f.tree t
    for n in tree.nodes.toList do
      match n.tree with
      | .given inner => checkWiring f depth inner
      | _ => pure ()
    tree.links.forM tree.checkLink

def wiring (f : Forest) (t : Nat) : Except Fault Unit := f.checkWiring (f.trees.size + 1) t

end Forest

end SceneExchange.Graph
