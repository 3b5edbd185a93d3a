import SceneExchange.Import.Reading

/-!
# Making the nodes of a material

Every expression of a kind that is known becomes a node. Its inputs and outputs may be given other
sockets than those in the order of the node; an output without one is the socket of its index.
-/

namespace SceneExchange.Import

open Stage (NodeKind Socket)

structure Made where
  node : Nat
  kind : NodeKind
  inputs : List (String × Socket) := []
  outputs : List (Int × Socket) := []
  deriving Inhabited

namespace Importing

def onMaterial (place : Nat) (f : Stage.Material → Stage.Material) : Importing Unit :=
  onStage fun s => { s with materials := s.materials.modify place f }

def stageMaterial (place : Nat) : Importing Stage.Material := do
  pure ((← get).stage.materials[place]?.getD default)

def addNode (material : Nat) (node : Stage.Node) : Importing Nat := do
  let place := (← stageMaterial material).nodes.size
  onMaterial material fun m => { m with nodes := m.nodes.push node }
  pure place

def onNode (material node : Nat) (f : Stage.Node → Stage.Node) : Importing Unit :=
  onMaterial material fun m => { m with nodes := m.nodes.modify node f }

def addLink (material : Nat) (source target : Socket) : Importing Unit :=
  onMaterial material fun m => { m with links := m.links.push ⟨source, target⟩ }

def bareNode (material : Nat) (kind : NodeKind) (inputs : List (String × Nat)) : Importing Made := do
  let node ← addNode material (.ofKind kind)
  pure ⟨node, kind, inputs.map fun (key, place) => (key, ⟨node, place⟩), []⟩

def textureNode (material : Nat) (e : Expression) : Importing Made := do
  let name ← lift (e.attributeOf "PathName")
  let parts := (← get).parts
  let image ← match parts.textureNames.get? name with
    | some place => pure ((parts.textures[place]?.getD default).image.getD none)
    | none => do
      write .warning "texture %s referenced from material not found"
      pure none
  let node ← addNode material { Stage.Node.ofKind .imageTexture with image := some image }
  pure ⟨node, .imageTexture, [], [(0, ⟨node, 0⟩), (4, ⟨node, 1⟩), (5, ⟨node, 0⟩)]⟩

def colorNode (material : Nat) (e : Expression) : Importing Made := do
  let color ← lift (Color.read (← lift (e.attributeOf "constant")))
  let node ← addNode material
    { Stage.Node.ofKind .color with outputDefaults := [(0, .color color)] }
  pure ⟨node, .color, [], []⟩

def scalarNode (material : Nat) (e : Expression) : Importing Made := do
  let node ← addNode material (.ofKind .value)
  let x ← real (← lift (e.attributeOf "constant"))
  onNode material node fun n => { n with outputDefaults := [(0, .real x)] }
  pure ⟨node, .value, [], []⟩

def desaturationNodes (material : Nat) : Importing Made := do
  let color ← addNode material (.ofKind .reroute)
  let gray ← addNode material (.ofKind .gray)
  addLink material ⟨color, 0⟩ ⟨gray, 0⟩
  let mix ← addNode material (.ofKind .mix)
  addLink material ⟨color, 0⟩ ⟨mix, 1⟩
  addLink material ⟨gray, 0⟩ ⟨mix, 2⟩
  onNode material mix fun n => { n with inputDefaults := [(0, .real 1.0)] }
  pure ⟨mix, .mix, [("0", ⟨color, 0⟩), ("1", ⟨mix, 0⟩)], []⟩

def vectorNode (material : Nat) (operation : String) : Importing Made := do
  let node ← addNode material { Stage.Node.ofKind .vectorMath with operation := some operation }
  pure ⟨node, .vectorMath, [("0", ⟨node, 0⟩), ("1", ⟨node, 1⟩)], []⟩

def powerNode (material : Nat) (e : Expression) : Importing Made := do
  let node ← addNode material { Stage.Node.ofKind .math with operation := some "POWER" }
  match e.properties.get? "ConstExponent" with
  | some (type, value) => do
    expect (type == "Float")
    let x ← real value
    onNode material node fun n => { n with inputDefaults := [(1, .real x)] }
  | none => pure ()
  pure ⟨node, .math, [("0", ⟨node, 0⟩), ("1", ⟨node, 1⟩)], []⟩

def geometryNode (material : Nat) : Importing Made := do
  let node ← addNode material (.ofKind .geometry)
  pure ⟨node, .geometry, [], [(0, ⟨node, 1⟩)]⟩

def functionFolder : String := "/DatasmithBlenderContent/MaterialFunctions/"

def functionNode (material : Nat) (e : Expression) : Importing Made := do
  print ("found functioncall: " ++ e.datum.literal)
  let function ← lift (e.attributeOf "Function")
  if function == functionFolder ++ "RGB_To_BW" then bareNode material .gray [("0", 0)]
  else if function == functionFolder ++ "NormalStrength" then
    bareNode material .normalMap [("0", 0), ("1", 1)]
  else bareNode material .reroute [("0", 0)]

def expressionNode (material : Nat) (e : Expression) : Importing (Option Made) :=
  match e.tag with
  | "Texture" => some <$> textureNode material e
  | "Color" => some <$> colorNode material e
  | "Desaturation" => some <$> desaturationNodes material
  | "Scalar" => some <$> scalarNode material e
  | "Add" => some <$> vectorNode material "ADD"
  | "Multiply" => some <$> vectorNode material "MULTIPLY"
  | "Power" => some <$> powerNode material e
  | "VertexNormalWS" => some <$> geometryNode material
  | "LinearInterpolate" => some <$> bareNode material .mix [("0", 1), ("1", 2), ("2", 0)]
  | "OneMinus" => some <$> bareNode material .invert [("0", 1)]
  | "Fresnel" => some <$> bareNode material .fresnel [("0", 0), ("2", 1)]
  | "TextureCoordinate" => some <$> bareNode material .uvMap []
  | "AppendVector" => do
    print ("found appendvector: " ++ e.datum.literal)
    some <$> bareNode material .reroute []
  | "ComponentMask" => do
    print ("found componentmask: " ++ e.datum.literal)
    some <$> bareNode material .reroute []
  | "FunctionCall" => some <$> functionNode material e
  | tag => do
    write .error ("  exp_type not supported: " ++ tag)
    pure none

def makeNode (material : Nat) (e : Expression) : Importing (Option Made) := do
  let made ← expressionNode material e
  match made, e.attribute? "Name" with
  | some m, some name =>
    if !name.isEmpty then
      onNode material m.node fun n => { n with name := name, label := name }
  | _, _ => pure ()
  pure made

def sourceSocket (made : Array (Option Made)) (s : Source) : Importing (Option Socket) := do
  let some place := Stage.member? made.size s.expression | throw (.sequenceOutOfRange "list")
  match made[place]?.getD none with
  | none => pure none
  | some m =>
    match m.outputs.lookup s.output with
    | some socket => pure (some socket)
    | none => do
      let output ← lift (Stage.memberAt m.kind.outputs.length s.output)
      pure (some ⟨m.node, output⟩)

/-- Links the inputs of an expression to the nodes that they come from. An input for which the node
has no socket is passed over, but its source has to be there. -/
def linkInputs (material : Nat) (made : Array (Option Made)) (m : Made) (e : Expression) :
    Importing Unit := do
  if !m.inputs.isEmpty then
    e.inputs.entries.forM fun (key, source) => do
      match ← sourceSocket made source, m.inputs.lookup key with
      | some origin, some target => addLink material origin target
      | _, _ => pure ()

def principledInput? : String → Option Nat
  | "BaseColor" => some 0
  | "Metallic" => some 1
  | "Roughness" => some 2
  | "Normal" => some 5
  | "Specular" => some 6
  | _ => none

def linkOutputs (material : Nat) (made : Array (Option Made)) (inputs : Table String Source) :
    Importing Unit :=
  inputs.entries.forM fun (key, source) =>
    match principledInput? key with
    | none => pure ()
    | some place => do
      match ← sourceSocket made source with
      | some from_ => addLink material from_ ⟨0, place⟩
      | none => pure ()

def expressionsOf (m : Material) : Importing (List Expression) :=
  match m.fields.get? "expressions" with
  | none => throw (.missingKey (.text "expressions"))
  | some (.expressions es) => pure es
  | some (.text s) => if s.isEmpty then pure [] else throw (.tooFewValues 4 1)
  | some (.inputs _) => pure []

def linkShader (place : Nat) (m : Material) : Importing Unit := do
  if !m.fields.contains "expressions" then throw (.missingKey (.text "expressions"))
  if !m.fields.contains "inputs" then throw (.missingKey (.text "inputs"))
  onMaterial place fun b => { b with usesNodes := true }
  let es ← expressionsOf m
  let made ← es.foldlM (fun (made : Array (Option Made)) e => do
    pure (made.push (← makeNode place e))) #[]
  (es.zip made.toList).forM fun (e, made?) =>
    match made? with
    | some node => linkInputs place made node e
    | none => pure ()
  match m.text? "ShadingModel" with
  | none => pure ()
  | some "ThinTranslucent" => onMaterial place fun b => { b with blend := some "BLEND" }
  | some other => write .error ("unrecognized ShadingModel: " ++ other)
  match m.fields.get? "inputs" with
  | some (.inputs inputs) => linkOutputs place made inputs
  | _ => throw (.noProperty "str" "items")

def linkMaster (place : Nat) (m : Material) : Importing Unit := do
  let color ← match m.text? "Color" with
    | some text => do pure ((← lift (Color.read text)).toList.map Datum.real)
    | none => pure (List.replicate 4 (Datum.int 1))
  let (color, blend) ← match m.text? "Opacity" with
    | some text => do pure (color.take 3 ++ [.real (← real text)], "BLEND")
    | none => pure (color, "OPAQUE")
  onMaterial place fun b => { b with diffuse := some color, blend := some blend }
  match m.text? "Texture" with
  | none => pure ()
  | some file => do
    let s ← get
    let some index := s.parts.textureFiles.get? file | throw (.missingKey (.text file))
    let texture := s.parts.textures[index]?.getD default
    write .error (texture.text s.stage)
    onMaterial place fun b => { b with usesNodes := true }
    let node ← addNode place (.ofKind .imageTexture)
    addLink place ⟨node, 0⟩ ⟨0, 0⟩
    onNode place node fun n => { n with image := some (texture.image.getD none) }

def linkMaterial (key : String) (m : Material) : Importing Unit := do
  let place := (← get).stage.materials.size
  onStage fun s => { s with materials := s.materials.push { name := m.label "name" } }
  onParts fun p => { p with materials := p.materials.insert key { m with made := some place } }
  match m.label "type" with
  | "UEPbrMaterial" => linkShader place m
  | "MasterMaterial" => linkMaster place m
  | _ => pure ()

end Importing

end SceneExchange.Import
