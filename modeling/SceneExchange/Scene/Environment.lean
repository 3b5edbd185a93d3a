import SceneExchange.Scene.Basic

/-!
# The environment of a scene

The world's surface leads to a background, whose color may be an image: that image lights the scene
and is seen behind it.
-/

namespace SceneExchange.Scene

open SceneExchange.Graph Material Compile

def feeder (f : Forest) (p : SocketRef) : Except Fault NodeRef :=
  match f.source? p with
  | some q => .ok ⟨q.tree, q.node⟩
  | none => .error (.sequenceOutOfRange "tuple")

def behindReroutes (f : Forest) : Nat → NodeRef → Except Fault NodeRef
  | 0, r => .ok r
  | fuel + 1, r =>
    if (f.node r).kind == "REROUTE" then do
      behindReroutes f fuel (← feeder f (← f.inputAt r 0))
    else .ok r

def environmentElement (name texture illuminates : String) : Markup.Element :=
  .mk "Environment" [("name", .text name), ("label", .text name)] [
    .element (.leaf "Texture" [("tex", .text texture)]),
    .element (.leaf "Illuminate" [("enabled", .text illuminates)])]

def backgroundSource (f : Forest) (tree : Nat) : Except Fault (Option NodeRef) := do
  match f.outputNode? tree with
  | none => .error (.propertyOfNothing "inputs")
  | some output =>
    let first ← feeder f (← f.inputNamed output "Surface")
    let background ← behindReroutes f f.nodeCount first
    match f.inputNamed? background "Color" with
    | none => pure none
    | some color => pure ((f.source? color).map fun q => ⟨q.tree, q.node⟩)

def environmentImage (n : Node) : Except Fault Nat :=
  match n.image with
  | .absent => .error (.noProperty "Node" "image")
  | .empty => .error (.propertyOfNothing "name")
  | .given i => .ok i

def environment (world : Option World) : Compile (List Markup.Element) := do
  match world with
  | none => pure []
  | some w =>
    if !w.useNodes then pure []
    else
      write .info "Collecting environment"
      let f ← read
      match ← lift (backgroundSource f w.tree) with
      | none => pure []
      | some source =>
        let node := f.node source
        if node.kind != "TEX_ENVIRONMENT" then
          write .info ("Background texture is " ++ node.kind)
          pure []
        else
          write .info "found environment, collecting..."
          let texture ← enterTexture (← lift (environmentImage node)) Texture.defaultHint
          pure [environmentElement "world_environment_background" texture "0",
            environmentElement "world_environment_lighting" texture "1"]

end SceneExchange.Scene
