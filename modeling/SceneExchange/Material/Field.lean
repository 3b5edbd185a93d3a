import SceneExchange.Material.Function
import SceneExchange.Material.Session

/-!
# Compiling a field

A field is an input socket of a node. An unlinked field gives its default, a linked one what the
linked output compiles to, adapted to the kind of the field. Compilation of a graph is the fixed
point of these steps, so they take the compilation of other fields as a parameter.
-/

namespace SceneExchange.Material

open SceneExchange.Graph Compile

structure FieldMode where
  /-- Uses the default of a vector field even if it stands for computed coordinates. -/
  forceDefault : Bool
  quiet : Bool
  deriving Repr, DecidableEq, Inhabited

namespace FieldMode

def normal : FieldMode := ⟨false, false⟩

def forced : FieldMode := ⟨true, false⟩

def silent : FieldMode := ⟨false, true⟩

end FieldMode

abbrev Visit := SocketRef → FieldMode → Compile Operand

namespace Visit

def named (visit : Visit) (r : NodeRef) (name : String) : Compile Operand := do
  visit (← lift ((← read).inputNamed r name)) .normal

def namedForced (visit : Visit) (r : NodeRef) (name : String) : Compile Operand := do
  visit (← lift ((← read).inputNamed r name)) .forced

def namedSilent (visit : Visit) (r : NodeRef) (name : String) : Compile Operand := do
  visit (← lift ((← read).inputNamed r name)) .silent

def nth (visit : Visit) (r : NodeRef) (i : Nat) : Compile Operand := do
  visit (← lift ((← read).inputAt r i)) .normal

def nthForced (visit : Visit) (r : NodeRef) (i : Nat) : Compile Operand := do
  visit (← lift ((← read).inputAt r i)) .forced

def inputs (visit : Visit) (r : NodeRef) (names : List (String × String)) : Compile (List Part) :=
  names.mapM fun (slot, name) => do input slot (← visit.named r name)

def optionalInputs (visit : Visit) (r : NodeRef) (names : List (String × String)) :
    Compile (List Part) := do
  pure (← names.mapM fun (slot, name) => do optionalInput slot (← visit.named r name)).flatten

def firstInputs (visit : Visit) (r : NodeRef) (count : Nat) : Compile (List Part) :=
  (List.range count).mapM fun i => do input (toString i) (← visit.nth r i)

def firstOptionalInputs (visit : Visit) (r : NodeRef) (count : Nat) : Compile (List Part) := do
  pure (← (List.range count).mapM fun i => do
    optionalInput (toString i) (← visit.nth r i)).flatten

end Visit

def signedComponent : Datum → Except Fault Datum
  | .real x => .ok (.real (x * 2.0 - 1.0))
  | .flag b => .ok (.real ((if b then 1.0 else 0.0) * 2.0 - 1.0))
  | .int n =>
    match Number.ofInt? n with
    | some x => .ok (.real (x * 2.0 - 1.0))
    | none => .error .integerTooLarge
  | d => .error (.wrongKind ("can't multiply sequence by non-int of type 'float': " ++ d.kindName))

def signedColor (v : SocketValue) : Except Fault SocketValue := do
  let r ← signedComponent (← v.component 0)
  let g ← signedComponent (← v.component 1)
  let b ← signedComponent (← v.component 2)
  let a ← v.component 3
  pure (.tuple [r, g, b, a])

def normalContext : Datum := .text "NORMAL"

def bumpContext : Datum := .text "BUMP"

def inContext (d : Datum) (name : String) : Bool :=
  match d with
  | .text s => s == name
  | _ => false

def withoutDefault (node : Node) (socket : Socket) (mode : FieldMode) : Compile Operand := do
  onlyIf (!mode.quiet) (write .warning ("Node " ++ node.name ++ " (" ++ node.kind ++ ") field " ++
    socket.name ++ " (" ++ socket.kind.name ++ ") has no links, and no default value."))
  pure .none

def colorInContext (v : SocketValue) : Compile SocketValue := do
  if inContext (← context) "NORMAL" then lift (signedColor v) else pure v

def darkShader : Compile Operand := do
  let color ← ref (← emitReal 0.0)
  let roughness ← ref (← emitReal 1.0)
  newBundle [("BaseColor", color), ("Roughness", roughness)]

def defaultOperand (node : Node) (socket : Socket) (mode : FieldMode) : Compile Operand :=
  match socket.kind with
  | .value => do refOutput (← emitScalarValue socket.value) 0
  | .color => do refOutput (← emitColorValue (← colorInContext socket.value) .null) 0
  | .vector =>
    if mode.forceDefault || socket.value.isOwnVector then do
      refOutput (← emitVectorValue socket.value) 0
    else withoutDefault node socket mode
  | .shader => darkShader
  | .other _ => withoutDefault node socket mode

def adapt (field output : SocketKind) (o : Operand) : Compile Operand :=
  match field, output with
  | .value, .color => do emitRef (.call Function.toGray (← optionalInput "0" o))
  | .value, .vector => do
    let first ← input "0" o
    let third ← emitTriple 0.333333 0.333333 0.333333
    emitRef (.plain "DotProduct" [first, directInput "1" third 0])
  | .vector, .color => do
    let first ← optionalInput "0" o
    emitRef (.plain "ComponentMask" (first ++
      [.text "<Prop name=\"R\" val=\"True\" type=\"Bool\" />",
       .text "<Prop name=\"G\" val=\"True\" type=\"Bool\" />",
       .text "<Prop name=\"B\" val=\"True\" type=\"Bool\" />"]))
  | .color, .vector => do
    let alpha ← emitReal 1.0
    emitRef (.plain "AppendVector" ((← optionalInput "0" o) ++ [directInput "1" alpha 0]))
  | .color, .value => do
    let r ← optionalInput "0" o
    let g ← optionalInput "1" o
    let b ← optionalInput "2" o
    emitRef (.call Function.combineRgb (r ++ g ++ b))
  | .shader, .shader => pure o
  | .shader, _ => do
    let black ← emitColor [.int 0, .int 0, .int 0, .int 1] .null
    newBundle [("BaseColor", .index black), ("EmissiveColor", o)]
  | _, _ => pure o

def announce (node : Node) (socket : Socket) : Compile Unit := do
  let depth := (← get).depth
  write .debug (String.join (List.replicate depth "|   ") ++ node.kind ++ ":" ++ node.name ++ "/" ++
    socket.kind.name ++ ":" ++ socket.name)

def linkedOperand (output : SocketRef → SocketRef → Compile Operand) (source field : SocketRef) :
    Compile Operand := do
  let forest ← read
  let o ← nested (output source field)
  remember source o
  if ← present o then adapt (forest.inputSocket field).kind (forest.outputSocket source).kind o
  else pure o

def fieldStep (output : SocketRef → SocketRef → Compile Operand) (field : SocketRef) (mode : FieldMode) :
    Compile Operand := do
  let forest ← read
  let node := forest.node ⟨field.tree, field.node⟩
  let socket := forest.inputSocket field
  announce node socket
  match forest.source? field with
  | none => defaultOperand node socket mode
  | some source =>
    if (forest.outputSocket source).enabled then linkedOperand output source field
    else defaultOperand node socket mode

end SceneExchange.Material
