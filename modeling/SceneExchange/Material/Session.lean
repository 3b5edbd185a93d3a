import SceneExchange.Graph.Node
import SceneExchange.Material.Expression
import SceneExchange.Number.Fixed
import SceneExchange.Texture.Catalog

/-!
# The state of compiling node graphs into expressions

Results of compiling a socket are operands: nothing, the position of an expression, or a bundle.
A bundle is either a reference (`expression`, `OutputIndex`) or a shader (`BaseColor`, …). All
consumers of a socket share its bundle, and a consumer that extends the bundle extends it for
all of them, so bundles live in the session and operands name them.

The state survives a fault: what was entered before it stays.
-/

namespace SceneExchange.Material

open SceneExchange.Graph

inductive Operand where
  | none
  | index (n : Int)
  | bundle (id : Nat)
  deriving Repr, DecidableEq, Inhabited

abbrev Bundle := Table String Operand

/-- The outputs of an expression that stands for a whole node, by socket name; places without a
socket hold other data. -/
structure Station where
  expression : Int
  outputs : List Datum
  deriving Inhabited

inductive CurveRow where
  | ramp (r : Ramp)
  | curves (cs : List Curve)
  deriving Inhabited

structure Session where
  expressions : Array Expression := #[]
  bundles : Array Bundle := #[]
  memo : List (SocketRef × Operand) := []
  nodeMemo : List (NodeRef × Int) := []
  stations : List (NodeRef × Station) := []
  groupInputs : Table String (Operand × Bool) := .empty
  contexts : List Datum := []
  depth : Nat := 0
  heightTextures : List Int := []
  textures : Texture.Catalog := .empty
  images : Array Texture.Image := #[]
  hostImages : List Nat := []
  curveCount : Nat := 0
  curveRows : Table Nat CurveRow := .empty
  twoSided : Bool := false
  owned : Bool := false
  reportedWarnings : List String := []
  reportedErrors : List String := []
  log : Array LogLine := #[]
  /-- What a run may note of itself. -/
  notes : List Nat := []
  deriving Inhabited

abbrev Compile := ReaderT Forest (ExceptT Fault (StateM Session))

namespace Compile

def fail {α : Type} (f : Fault) : Compile α := throw f

def lift {α : Type} (r : Except Fault α) : Compile α :=
  match r with
  | .ok a => pure a
  | .error f => fail f

def require (condition : Bool) (message : String) : Compile Unit :=
  if condition then pure () else fail (.violated message)

def onlyIf (condition : Bool) (m : Compile Unit) : Compile Unit := if condition then m else pure ()

def membersIf {α : Type} (condition : Bool) (m : Compile (List α)) : Compile (List α) :=
  if condition then m else pure []

def write (level : LogLevel) (message : String) : Compile Unit :=
  modify fun s => { s with log := s.log.push ⟨level, message⟩ }

def warnOnceAs (template message : String) : Compile Unit := do
  let s ← get
  if s.reportedWarnings.contains template then pure ()
  else
    set { s with reportedWarnings := template :: s.reportedWarnings }
    write .warning message

def warnOnce (message : String) : Compile Unit := warnOnceAs message message

def errorOnce (message : String) : Compile Unit := do
  let s ← get
  if s.reportedErrors.contains message then pure ()
  else
    set { s with reportedErrors := message :: s.reportedErrors }
    write .error message

def emit (e : Expression) : Compile Int := do
  let s ← get
  set { s with expressions := s.expressions.push e }
  pure s.expressions.size

def emitted : Compile (List Expression) := do pure (← get).expressions.toList

def newBundle (entries : List (String × Operand)) : Compile Operand := do
  let s ← get
  set { s with bundles := s.bundles.push (Table.ofList entries) }
  pure (.bundle s.bundles.size)

def bundle (id : Nat) : Compile Bundle := do
  pure ((← get).bundles[id]?.getD .empty)

def entry (id : Nat) (name : String) : Compile Operand := do
  pure (((← bundle id).get? name).getD .none)

def setEntry (id : Nat) (name : String) (o : Operand) : Compile Unit :=
  modify fun s => { s with
    bundles := s.bundles.setIfInBounds id ((s.bundles[id]?.getD .empty).insert name o) }

def ref (expression : Int) : Compile Operand := newBundle [("expression", .index expression)]

def refOutput (expression output : Int) : Compile Operand :=
  newBundle [("expression", .index expression), ("OutputIndex", .index output)]

def emitRef (e : Expression) : Compile Operand := do ref (← emit e)

end Compile

/-- The value of an operand with its bundles opened; a bundle inside itself is not opened again. -/
def Operand.datum (bundles : Array Bundle) : Nat → List Nat → Operand → Datum
  | _, _, .none => .null
  | _, _, .index n => .int n
  | 0, _, .bundle _ => .shown "\x7b...\x7d"
  | fuel + 1, visited, .bundle id =>
    if visited.contains id then .shown "\x7b...\x7d"
    else .record ((bundles[id]?.getD .empty).entries.map fun (k, o) =>
      (k, datum bundles fuel (id :: visited) o))

namespace Compile

def present : Operand → Compile Bool
  | .none => pure false
  | .index n => pure (n != 0)
  | .bundle id => do pure !(← bundle id).isEmpty

def presentOr (o : Operand) (other : Compile Operand) : Compile Operand := do
  if ← present o then pure o else other

def value (o : Operand) : Compile Datum := do
  let bundles := (← get).bundles
  pure (o.datum bundles (bundles.size + 1) [])

end Compile

/-- The source that a value stands for; the output applies to a plain position only. A table that
is no reference is reported by the given action. -/
def sourceOf {m : Type → Type} [Monad m] [MonadExceptOf Fault m] (report : String → m Unit)
    (d : Datum) (output : Datum) : m Source :=
  match d with
  | .null => pure (.nothing output)
  | .int n => pure ⟨.int n, output⟩
  | .dict entries =>
    let find (k : String) : Option Datum := entries.findSome? fun
      | (.text k', v) => if k' == k then some v else none
      | _ => none
    match find "expression" with
    | some e => pure ⟨e, (find "OutputIndex").getD (.int 0)⟩
    | none => do
      report d.display
      throw (.missingKey (.text "expression"))
  | .tuple [e, o] => pure ⟨e, o⟩
  | .tuple items =>
    if items.length < 2 then throw (.tooFewValues 2 items.length) else throw (.tooManyValues 2)
  | _ => throw (.violated "")

namespace Compile

def source (o : Operand) (output : Int) : Compile Source := do
  sourceOf (write .error) (← value o) (.int output)

def input (name : String) (o : Operand) : Compile Part := do
  pure (.input name (← source o 0))

def optionalInputAt (name : String) (o : Operand) (output : Int) : Compile (List Part) :=
  match o with
  | .none => pure []
  | o => do pure [.input name (← source o output)]

def optionalInput (name : String) (o : Operand) : Compile (List Part) :=
  optionalInputAt name o 0

def numberedInputs (operands : List Operand) : Compile (List Part) :=
  operands.zipIdx.mapM fun (o, i) => input (toString i) o

def directInput (name : String) (expression output : Int) : Part :=
  .input name ⟨.int expression, .int output⟩

end Compile

def sixPlaces : Datum → Except Fault String
  | .real x => .ok (Number.six x)
  | .flag b => .ok (Number.six (if b then 1.0 else 0.0))
  | .int n =>
    match Number.ofInt? n with
    | some x => .ok (Number.six x)
    | none => .error .integerTooLarge
  | d => .error (.wrongKind ("must be real number, not " ++ d.kindName))

def sixPlacesEach : Nat → List Datum → Except Fault (List String)
  | 0, [] => .ok []
  | 0, _ :: _ => .error (.wrongKind "not all arguments converted during string formatting")
  | _ + 1, [] => .error (.wrongKind "not enough arguments for format string")
  | n + 1, d :: rest => do
    let s ← sixPlaces d
    let tail ← sixPlacesEach n rest
    pure (s :: tail)

def scalarText : SocketValue → Except Fault String
  | .single d => sixPlaces d
  | .tuple items => do pure (String.join (← sixPlacesEach 1 items))
  | .vector _ => .error (.wrongKind "must be real number, not Vector")
  | .euler _ => .error (.wrongKind "must be real number, not Euler")
  | .array _ => .error (.wrongKind "must be real number, not bpy_prop_array")

def vectorText (items : List Datum) : Except Fault String := do
  match ← sixPlacesEach 3 items with
  | [r, g, b] => pure ("(R=" ++ r ++ ",G=" ++ g ++ ",B=" ++ b ++ ",A=1.0)")
  | _ => pure ""

def colorText (items : List Datum) : Except Fault String := do
  match ← sixPlacesEach 4 items with
  | [r, g, b, a] => pure ("(R=" ++ r ++ ",G=" ++ g ++ ",B=" ++ b ++ ",A=" ++ a ++ ")")
  | _ => pure ""

namespace Compile

def emitScalarText (text : String) : Compile Int :=
  emit ⟨"Scalar", [("constant", .text text)], []⟩

def emitScalarValue (v : SocketValue) : Compile Int := do emitScalarText (← lift (scalarText v))

def emitScalar (d : Datum) : Compile Int := emitScalarValue (.single d)

def emitReal (x : Float) : Compile Int := emitScalarText (Number.six x)

def emitVector (items : List Datum) : Compile Int := do
  emit ⟨"Color", [("constant", .text (← lift (vectorText items)))], []⟩

def emitVectorValue (v : SocketValue) : Compile Int := do emitVector (← lift v.components)

def emitTriple (x y z : Float) : Compile Int := emitVector [.real x, .real y, .real z]

def emitColor (items : List Datum) (name : Datum) : Compile Int := do
  let attributes := [("constant", .text (← lift (colorText items)))] ++
    (if name.holds then [("Name", name)] else [])
  let color ← emit ⟨"Color", attributes, []⟩
  let alpha ← emitScalar (items[3]?.getD .null)
  emit (.plain "AppendVector" [directInput "0" color 0, directInput "1" alpha 0])

def emitColorValue (v : SocketValue) (name : Datum) : Compile Int := do
  emitColor (← lift v.components) name

def context : Compile Datum := do
  pure ((← get).contexts.head?.getD .null)

def pushContext (d : Datum) : Compile Unit :=
  modify fun s => { s with contexts := d :: s.contexts }

def popContext : Compile Unit := do
  match (← get).contexts with
  | [] => fail (.raised "IndexError" "pop from empty list")
  | _ :: rest => modify fun s => { s with contexts := rest }

/-- Reads textures in a context for the time of a computation; the context stays when it fails. -/
def within {α : Type} (d : Datum) (m : Compile α) : Compile α := do
  pushContext d
  let a ← m
  popContext
  pure a

def nested {α : Type} (m : Compile α) : Compile α := do
  let depth := (← get).depth
  modify fun s => { s with depth := depth + 1 }
  let a ← m
  modify fun s => { s with depth := depth }
  pure a

def recalled (output : SocketRef) : Compile (Option Operand) := do
  pure ((← get).memo.lookup output)

def remember (output : SocketRef) (o : Operand) : Compile Unit :=
  modify fun s => { s with memo := (output, o) :: s.memo }

def recalledNode (r : NodeRef) : Compile (Option Int) := do
  pure ((← get).nodeMemo.lookup r)

def rememberNode (r : NodeRef) (e : Int) : Compile Unit :=
  modify fun s => { s with nodeMemo := (r, e) :: s.nodeMemo }

def station? (r : NodeRef) : Compile (Option Station) := do
  pure ((← get).stations.lookup r)

def rememberStation (r : NodeRef) (station : Station) : Compile Unit :=
  modify fun s => { s with stations := (r, station) :: s.stations }

def rememberHeight (e : Int) : Compile Unit :=
  modify fun s => { s with heightTextures := s.heightTextures ++ [e] }

def showBothSides : Compile Unit :=
  modify fun s => { s with twoSided := true }

def showFrontSide : Compile Unit :=
  modify fun s => { s with twoSided := false }

def isTwoSided : Compile Bool := do pure (← get).twoSided

def isOwned : Compile Bool := do pure (← get).owned

end Compile

def curvesName : String := "blender_curves"

def curvesSize : Nat := 1024

namespace Compile

def imageName (image : Nat) : Compile String := do
  pure ((← get).images[image]?.getD default).name

def textures : Compile Texture.Catalog := do pure (← get).textures

def enterTexture (image : Nat) (hint : String) : Compile String := do
  let name ← lift (Name.legal (← imageName image))
  let (catalog, isNew) := Texture.enter (← textures) name image hint
  onlyIf isNew do
    write .debug ("collecting texture:" ++ name)
    modify fun s => { s with textures := catalog }
  pure name

end Compile

end SceneExchange.Material
