import SceneExchange.Material.Handler.Converters
import SceneExchange.Material.Handler.Groups
import SceneExchange.Material.Handler.Inputs
import SceneExchange.Material.Handler.Shaders
import SceneExchange.Material.Handler.Textures
import SceneExchange.Material.Handler.Vectors

/-!
# Compiling a node graph

An output that was compiled before is answered from the tables; any other one is compiled by the
handler of its node. The recursion takes fuel: along the links of a tree and into the trees of
groups no node is met twice unless the graph has a cycle, so the number of all nodes is enough.
-/

namespace SceneExchange.Material

open SceneExchange.Graph Compile

def valueHandler? (kind : String) : Option Handler :=
  Handlers.inputHandler? kind <|> Handlers.textureHandler? kind <|> Handlers.colorHandler? kind
    <|> Handlers.vectorHandler? kind <|> Handlers.converterHandler? kind

def handler? (kind : String) : Option Handler :=
  Handlers.shaderHandler? kind <|> valueHandler? kind

def unhandled (kind : String) (out : SocketRef) : Compile Operand := do
  write .error ("Node " ++ kind ++ ":" ++ (← outputName out) ++ " not handled")
  ref (← emitReal 0.0)

def dispatch (visit : Visit) (out field : SocketRef) : Compile Operand := do
  let node := nodeOf out
  let kind := (← theNode out).kind
  match kind with
  | "GROUP" => Handlers.group visit out
  | "GROUP_INPUT" => Handlers.groupInput out field
  | "REROUTE" => visit.named node "Input"
  | _ =>
    match handler? kind with
    | some handler => handler visit out
    | none => unhandled kind out

def outputStep (visit : Visit) (out field : SocketRef) : Compile Operand := do
  match ← recalled out with
  | some o => pure o
  | none =>
    match ← station? (nodeOf out) with
    | some station => stationRef station (← outputName out)
    | none => dispatch visit out field

def compileWith : Nat → Visit
  | 0 => fun _ _ => fail .tooDeep
  | fuel + 1 => fieldStep (outputStep (compileWith fuel))

def compileField (field : SocketRef) : Compile Operand := do
  compileWith ((← read).nodeCount + 2) field .normal

end SceneExchange.Material
