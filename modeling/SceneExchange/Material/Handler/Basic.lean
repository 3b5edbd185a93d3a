import SceneExchange.Material.Field

/-!
# What the handlers of node kinds share

A handler compiles one output of a node of its kind.
-/

namespace SceneExchange.Material

open SceneExchange.Graph Compile

abbrev Handler := Visit → SocketRef → Compile Operand

def nodeOf (output : SocketRef) : NodeRef := ⟨output.tree, output.node⟩

def theNode (output : SocketRef) : Compile Node := do pure ((← read).node (nodeOf output))

def outputName (output : SocketRef) : Compile String := do pure ((← read).outputSocket output).name

def setting (output : SocketRef) (name : String) : Compile Datum := do
  lift ((← theNode output).setting name)

def choose {α : Type} (choices : List (String × α)) (d : Datum) : Compile α :=
  match d with
  | .text s =>
    match choices.lookup s with
    | some a => pure a
    | none => fail (.missingKey d)
  | _ => fail (.missingKey d)

def choice? {α : Type} (choices : List (String × α)) : Datum → Option α
  | .text s => choices.lookup s
  | _ => none

def isText (d : Datum) (s : String) : Bool := inContext d s

def position (choices : List String) (d : Datum) : Compile Int :=
  match d with
  | .text s =>
    match choices.findIdx? (· == s) with
    | some i => pure i
    | none => fail .notAmongChoices
  | _ => fail .notAmongChoices

/-- The place of a socket among the outputs of a station. The names `Factor` and `Fac` are the
same, and the second is looked for first. -/
def stationOutput (outputs : List Datum) (name : String) : Except Fault Int :=
  let find (n : String) := outputs.findIdx? fun d => isText d n
  match (if name == "Factor" then find "Fac" else none) <|> find name with
  | some i => .ok i
  | none => .error .notAmongChoices

def stationRef (station : Station) (name : String) : Compile Operand := do
  refOutput station.expression (← lift (stationOutput station.outputs name))

def enterStation (output : SocketRef) (station : Station) : Compile Operand := do
  rememberStation (nodeOf output) station
  stationRef station (← outputName output)

def stationed (body : Visit → SocketRef → Compile Station) : Handler := fun visit out => do
  enterStation out (← body visit out)

def onceFor (r : NodeRef) (body : Compile Int) : Compile Int := do
  match ← recalledNode r with
  | some e => pure e
  | none =>
    let e ← body
    rememberNode r e
    pure e

def texts (names : List String) : List Datum := names.map .text

def sliceInputs (visit : Visit) (r : NodeRef) (count : Nat) (mode : FieldMode) :
    Compile (List Part) := do
  let size := ((← read).node r).inputs.length
  (List.range (min count size)).mapM fun i => do
    input (toString i) (← visit ⟨r.tree, r.node, i⟩ mode)

def signFor (d : Datum) : Float := if d.holds then -1.0 else 1.0

end SceneExchange.Material
