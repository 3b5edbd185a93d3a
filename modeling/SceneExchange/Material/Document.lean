import SceneExchange.Material.Compile

/-!
# Materials as documents

A material without nodes is described by a few numbers, one with nodes by the channels that its
surface compiles to.
-/

namespace SceneExchange.Material

open SceneExchange.Graph Compile

structure Definition where
  name : String
  useNodes : Bool
  tree : Nat
  blendMethod : Datum
  alphaThreshold : Datum
  backfaceCulling : Datum
  diffuse : SocketValue
  roughness : Datum
  metallic : Datum
  specular : Datum
  deriving Inhabited

inductive Entry where
  | channel (name : String) (source : Source)
  | element (name : String) (expression : Int)
  | text (s : String)
  deriving Inhabited

structure Document where
  name : String
  /-- The expressions; a material without output node has none, not even an empty list. -/
  expressions : Option (List Expression)
  entries : List Entry
  deriving Inhabited

namespace Entry

def content : Entry → Markup.Content
  | .channel name source => .datum (.text (channelText name source))
  | .element name expression =>
    .element (.leaf name [("expression", .int expression), ("OutputIndex", .text "0")])
  | .text s => .datum (.text s)

end Entry

namespace Document

def element (d : Document) : Markup.Element :=
  .mk "UEPbrMaterial" [("name", .text d.name)]
    ((d.expressions.map fun es => Markup.Content.element (Expression.list es)).toList ++
      d.entries.map Entry.content)

end Document

def assemble (name : String) (entries : List Entry) : Compile Document := do
  pure ⟨name, some (← emitted), entries⟩

def defaultEntries : Compile (List Entry) := do
  let gray := Datum.real 0.906332
  let color ← emitColor [gray, gray, gray, .real 1.0] .null
  let roughness ← emitReal 0.4
  pure [.element "BaseColor" color, .element "Roughness" roughness]

def defaultDocument : Compile Document := do
  assemble "DefaultMaterial" (← defaultEntries)

def basicEntries (m : Definition) : Compile (List Entry) := do
  let color ← emitColorValue m.diffuse .null
  let roughness ← emitScalar m.roughness
  let metallic ← emitScalar m.metallic
  let specular ← emitScalar m.specular
  pure [.element "BaseColor" color, .element "Roughness" roughness, .element "Metallic" metallic,
    .element "Specular" specular]

def basicDocument (m : Definition) : Compile Document := do
  let name ← lift (Name.legal m.name)
  assemble name (← basicEntries m)

def clearShader : Compile Operand := do
  let color ← ref (← emitTriple 0.0 0.0 0.0)
  let refraction ← ref (← emitReal 1.0)
  let opacity ← ref (← emitReal 0.0)
  newBundle [("BaseColor", color), ("Refraction", refraction), ("Opacity", opacity)]

/-- The chain of calls that ties the height textures together, each calling the next one; the
first of them stands at `start`. -/
def heightChain (start : Int) : List Int → List Expression
  | [] => []
  | [e] => [.call Function.passthrough [directInput "0" e 0]]
  | e :: rest =>
    .call Function.passthrough [directInput "0" e 0, directInput "1" (start + 1) 0] ::
      heightChain (start + 1) rest

def channels (o : Operand) (fault : String → Fault) : Compile Nat :=
  match o with
  | .bundle id => pure id
  | .index _ => fail (fault "int")
  | .none => fail (fault "NoneType")

def notSubscriptable (kind : String) : Fault :=
  .wrongKind (Text.quoted kind ++ " object is not subscriptable")

def notIterable (kind : String) : Fault :=
  .wrongKind ("argument of type " ++ Text.quoted kind ++ " is not iterable")

def emitHeights : Compile (Option Int) := do
  let s ← get
  let start : Int := s.expressions.size
  let chain := heightChain start s.heightTextures
  set { s with expressions := s.expressions ++ chain.toArray }
  pure (if chain.isEmpty then none else some start)

def tieColor (surface : Operand) (start : Int) : Compile Unit := do
  let id ← channels surface notSubscriptable
  match (← bundle id).get? "BaseColor" with
  | none => fail (.missingKey (.text "BaseColor"))
  | some color =>
    let first ← optionalInput "0" color
    let tied ← emitRef (.call Function.passthrough (first ++ [directInput "1" start 0]))
    setEntry id "BaseColor" tied

def tieHeights (surface : Operand) : Compile Unit := do
  match ← emitHeights with
  | none => pure ()
  | some start => tieColor surface start

def atLeastHundredth (d : Datum) : Except Fault Datum :=
  match d with
  | .real x => .ok (if 0.01 > x then .real 0.01 else d)
  | .int n => .ok (if 0.01 > Float.ofInt n then .real 0.01 else d)
  | .flag b => .ok (if b then d else .real 0.01)
  | d => .error (.wrongKind ("'>' not supported between instances of 'float' and " ++
      Text.quoted d.kindName))

def ditherOpacity (id : Nat) : Compile Unit := do
  let opacity ← entry id "Opacity"
  if ← present opacity then
    let e ← emit (.call Function.ditherTemporal (← optionalInput "0" opacity))
    setEntry id "Opacity" (.index e)

def blendEntries (m : Definition) (surface : Operand) : Compile (List Entry × Bool) := do
  if isText m.blendMethod "CLIP" then
    let least ← lift (atLeastHundredth m.alphaThreshold)
    let text ← lift (sixPlaces least)
    pure ([.text "\n\t\t<Blendmode value=\"1\"/>",
      .text ("\n\t\t<OpacityMaskClipValue value=\"" ++ text ++ "\"/>")], true)
  else if isText m.blendMethod "HASHED" then
    ditherOpacity (← channels surface fun kind => .noProperty kind "get")
    pure ([.text "\n\t\t<Blendmode value=\"1\"/>",
      .text "\n\t\t<OpacityMaskClipValue value=\"0.5\"/>"], true)
  else if isText m.blendMethod "BLEND" then
    pure ([.text "\n\t\t<Blendmode value=\"2\"/>"], true)
  else
    let id ← channels surface notIterable
    pure ([], !(← bundle id).contains "Opacity")

def channelEntries (surface : Operand) : Compile (List Entry) := do
  let id ← channels surface fun kind => .noProperty kind "items"
  let entries := (← bundle id).entries
  let outputs ← entries.mapM fun (channel, o) => do pure (Entry.channel channel (← source o 0))
  let coat : List Entry := if (← bundle id).contains "ClearCoat" then
      [.text "\n\t\t<ShadingModel value=\"ClearCoat\"/>"] else []
  pure (outputs ++ coat)

def decideSides (culls wanted : Bool) : Compile Bool := do
  onlyIf wanted showBothSides
  onlyIf culls showFrontSide
  isTwoSided

def surfaceEntries (m : Definition) (surface : Operand) (alwaysTwoSided : Bool) :
    Compile (List Entry) := do
  let (blend, mayBeTwoSided) ← blendEntries m surface
  let outputs ← channelEntries surface
  let twoSided ← decideSides m.backfaceCulling.holds (alwaysTwoSided && mayBeTwoSided)
  let sides : List Entry := if twoSided then [.text "\n\t\t<TwoSided enabled=\"True\"/>"] else []
  pure (blend ++ outputs ++ sides)

def surfaceDocument (m : Definition) (name : String) (surface : Operand) (alwaysTwoSided : Bool) :
    Compile Document := do
  tieHeights surface
  assemble name (← surfaceEntries m surface alwaysTwoSided)

def volumeOperand (m : Definition) : Compile Operand := do
  write .warning ("Material " ++ m.name ++
    " has volume nodes, which are unsupported. Writing transparent material.")
  let clear ← clearShader
  modify fun s => { s with heightTextures := [] }
  pure clear

def compileAnew (field : SocketRef) : Compile Operand := do
  modify fun s => { s with heightTextures := [], memo := [], nodeMemo := [] }
  compileField field

def surfaceOperand (m : Definition) (output : NodeRef) : Compile Operand := do
  let forest ← read
  let surface ← lift (forest.inputNamed output "Surface")
  let volume ← lift (forest.inputNamed output "Volume")
  if forest.isLinked volume && !forest.isLinked surface then volumeOperand m else compileAnew surface

def nodeDocument (m : Definition) (alwaysTwoSided : Bool) : Compile Document := do
  modify fun s => { s with stations := [] }
  write .info ("Collecting material: " ++ m.name)
  let name ← lift (Name.legal m.name)
  match (← read).outputNode? m.tree with
  | none =>
    warnOnceAs "Material %s with use_nodes does not have nodes"
      ("Material " ++ m.name ++ " with use_nodes does not have nodes")
    pure ⟨name, none, []⟩
  | some output =>
    showFrontSide
    surfaceDocument m name (← surfaceOperand m output) alwaysTwoSided

/-- Starts a material. The bundles of earlier ones are forgotten, unless inputs of a group that was
not finished may still name them. -/
def startMaterial (owned : Bool) : Compile Unit :=
  modify fun s => { s with
    reportedWarnings := []
    reportedErrors := []
    owned := owned
    expressions := #[]
    bundles := if s.groupInputs.isEmpty then #[] else s.bundles }

def document (m : Option Definition) (owned alwaysTwoSided : Bool) : Compile Document := do
  startMaterial owned
  match m with
  | none =>
    write .debug "creating default material"
    defaultDocument
  | some m =>
    if m.useNodes then
      write .debug ("creating material " ++ m.name ++ " with node_tree ")
      nodeDocument m alwaysTwoSided
    else
      write .debug ("creating material " ++ m.name ++ " without nodes")
      basicDocument m

def heldCurves? : Compile (Option Nat) := do
  let s ← get
  pure (s.hostImages.find? fun i => (s.images[i]?.getD default).name == curvesName)

def newCurves : Compile Nat := do
  let s ← get
  let i := s.images.size
  set { s with
    images := s.images.push ⟨curvesName, "OPEN_EXR", 4, true, none, "", id⟩
    hostImages := s.hostImages ++ [i] }
  pure i

def curvesImage : Compile Nat := do
  match ← heldCurves? with
  | some i => pure i
  | none => newCurves

def enterCurveTexture : Compile Unit := do
  if (← curveCount) != 0 then
    let _ ← enterTexture (← curvesImage) Texture.defaultHint

/-- The documents of materials, each with whether it has an owner. The curve texture is entered
after them when any curve was sampled. -/
def documents (materials : List (Option Definition × Bool)) (alwaysTwoSided : Bool) :
    Compile (List Document) := do
  modify fun s => { s with curveCount := 0, curveRows := .empty }
  let result ← materials.mapM fun (m, owned) => document m owned alwaysTwoSided
  enterCurveTexture
  pure result

end SceneExchange.Material
