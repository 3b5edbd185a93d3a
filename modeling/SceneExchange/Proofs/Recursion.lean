import SceneExchange.Import

/-!
# Reading a tree by recursion

A scene is read from the tree of its document: every element is read from its tag and from the elements
inside it. There is no stream and no end of an element, and a reader gives no answer where the document
does not fit.
-/

namespace SceneExchange.Import

open Number

open Markup (Tag Tree)

/-- An element, as its tag and what it holds. -/
abbrev Element := Tag × List Tree

/-- The elements among trees. -/
def elements : List Tree → List Element
  | [] => []
  | .text _ :: ts => elements ts
  | .element tag inside :: ts => (tag, inside) :: elements ts

structure World where
  parts : Parts := {}
  stage : Stage := {}
  reached : Bool := false

/-- Reading that may change the world or give no answer. -/
abbrev Recursive := StateT World Option

namespace Recursive

def real? (tag : Tag) (key : String) : Option Float := (tag.attribute? key).bind readReal?

def integer? (tag : Tag) (key : String) : Option Int := (tag.attribute? key).bind readInteger?

def bare? (inside : List Tree) : Option Unit := if (elements inside).isEmpty then some () else none

/-! ## Actors -/

def component? (tag : Tag) (key : String) : Option (Option Float) := do
  let _ ← real? tag key
  pure none

def pose? (tag : Tag) : Option Pose := do
  let location ← ["tx", "ty", "tz"].mapM (component? tag)
  let rotation ← ["qw", "qx", "qy", "qz"].mapM (component? tag)
  let scale ← ["sx", "sy", "sz"].mapM (component? tag)
  pure ⟨location, rotation, scale⟩

def actorPart? (part : ActorPart) (a : ActorData) (tag : Tag) (inside : List Tree) : Option ActorData := do
  match part with
  | .tag | .children | .other => pure a
  | .pose => do
    bare? inside
    pure { a with pose := some (← pose? tag) }
  | .mesh => do
    bare? inside
    pure { a with mesh := some (← tag.attribute? "name") }
  | .material => do
    bare? inside
    let slot ← integer? tag "id"
    pure { a with overrides := a.overrides.insert slot (← tag.attribute? "name") }
  | .number => do
    bare? inside
    pure { a with numbers := a.numbers.insert tag.name (.real (← real? tag "value")) }
  | .word => do
    bare? inside
    pure { a with words := a.words.insert tag.name (← tag.attribute? "value") }
  | .color => do
    bare? inside
    let parts ← ["R", "G", "B"].mapM (real? tag)
    pure { a with color := some (.tuple (parts.map .real)) }

def lightKind? (tag : Tag) : Option (Option String) :=
  if tag.name == "Light" then do pure (some (← tag.attribute? "type")) else pure none

mutual

def actor? : Tree → Option Actor
  | .text _ => none
  | .element tag inside => do
    let name ← tag.attribute? "name"
    let lightKind ← lightKind? tag
    let start : ActorData := { name := name, kind := tag.name, lightKind := lightKind }
    let (data, below) ← actorInside? tag.name (start, []) inside
    pure (.mk data below)

/-- The data and the children of an actor, from those known so far and what else the actor holds. -/
def actorInside? (kind : String) : ActorData × List Actor → List Tree → Option (ActorData × List Actor)
  | known, [] => pure known
  | known, .text _ :: ts => actorInside? kind known ts
  | (data, below), .element tag inside :: ts =>
    match ActorPart.of kind tag.name with
    | .children => do actorInside? kind (data, below ++ (← actors? inside)) ts
    | part => do actorInside? kind (← actorPart? part data tag inside, below) ts

def actors? : List Tree → Option (List Actor)
  | [] => pure []
  | .text _ :: ts => actors? ts
  | .element tag inside :: ts => do
    let a ← actor? (.element tag inside)
    pure (a :: (← actors? ts))

end

/-! ## Materials -/

def property? (m : Material) (e : Element) : Option Material := do
  bare? e.2
  let name ← e.1.attribute? "name"
  let type ← e.1.attribute? "type"
  if !Importing.propertyTypes.contains type then failure
  pure (m.set name (.text (← e.1.attribute? "val")))

def masterPart? (m : Material) (e : Element) : Option Material :=
  if e.1.name == "KeyValueProperty" then property? m e else none

def masterMaterial? (e : Element) : Option (String × Material) := do
  let name ← e.1.attribute? "name"
  pure (name, ← (elements e.2).foldlM masterPart? (.ofTag e.1.name name))

def plainMaterial? (e : Element) : Option (String × Material) := do
  let name ← e.1.attribute? "name"
  pure (name, .ofTag e.1.name name)

/-- An input is known by its tag unless the tag is one of the general ones. -/
def inputKey? (tag : Tag) : Option String :=
  match tag.name with
  | "Input" => tag.attribute? "Name"
  | "Coordinates" => some "0"
  | name => some name

def outputIndex? (tag : Tag) : Option Int :=
  match tag.attribute? "OutputIndex" with
  | some text => readInteger? text
  | none => some 0

def input? (inputs : Table String Source) (e : Element) : Option (Table String Source) := do
  bare? e.2
  let key ← inputKey? e.1
  let expression ← integer? e.1 "expression"
  let output ← outputIndex? e.1
  pure (inputs.insert key ⟨expression, output⟩)

/-- A part of an expression. No other parts are read. -/
def expressionPart? (known : Expression) (e : Element) : Option Expression := do
  match e.1.name with
  | "Input" | "Coordinates" => do pure { known with inputs := ← input? known.inputs e }
  | "KeyValueProperty" => do
    bare? e.2
    let type ← e.1.attribute? "type"
    let value ← e.1.attribute? "val"
    let name ← e.1.attribute? "name"
    pure { known with properties := known.properties.insert name (type, value) }
  | _ => none

def textureObject? (inside : List Tree) : Option Expression :=
  match elements inside with
  | [e] => do
    bare? e.2
    pure { tag := "TextureObject", attributes := e.1.attributes }
  | _ => none

def expression? (e : Element) : Option Expression :=
  if e.1.name == "TextureObject" then textureObject? e.2
  else (elements e.2).foldlM expressionPart? { tag := e.1.name, attributes := e.1.attributes }

def expressions? (inside : List Tree) : Option (List Expression) := (elements inside).mapM expression?

def shaderPart? (known : Material × Table String Source) (e : Element) : Option (Material × Table String Source) := do
  match e.1.name with
  | "Expressions" => do pure (known.1.set "expressions" (.expressions (← expressions? e.2)), known.2)
  | "ShadingModel" => do
    bare? e.2
    pure (known.1.set e.1.name (.text (← e.1.attribute? "value")), known.2)
  | "Input" | "BaseColor" | "Roughness" | "Metallic" | "Normal" => do pure (known.1, ← input? known.2 e)
  | _ => pure known

def shaderMaterial? (e : Element) : Option (String × Material) := do
  let name ← e.1.attribute? "name"
  let (m, inputs) ← (elements e.2).foldlM shaderPart? (Material.ofTag e.1.name name, .empty)
  pure (name, m.set "inputs" (.inputs inputs))

/-! ## Textures and meshes -/

def texturePart? (_ : Unit) (e : Element) : Option Unit := if e.1.name == "Hash" then pure () else none

def texture? (e : Element) : Option Texture := do
  let name ← e.1.attribute? "name"
  let path ← e.1.attribute? "file"
  (elements e.2).foldlM texturePart? ()
  pure ⟨name, (fileOfPath? path).getD path, path, e.1.attribute? "texturemode", none⟩

def meshPart? (folder : String) (m : StaticMesh) (e : Element) : Option StaticMesh := do
  match e.1.name with
  | "Material" => do
    bare? e.2
    let id ← e.1.attribute? "id"
    let name ← e.1.attribute? "name"
    pure (m.addMaterial id name (← readInteger? id))
  | "file" => do
    bare? e.2
    pure { m with path := some (folder ++ "/" ++ (← e.1.attribute? "path")) }
  | _ => pure m

def staticMesh? (p : Place) (e : Element) : Option (String × StaticMesh) := do
  let name ← e.1.attribute? "name"
  let m ← (elements e.2).foldlM (meshPart? p.folder) { name := name }
  let path ← m.path
  let bytes ← (p.files.read path).toOption
  (Mesh.read bytes).1.toOption
  pure (name, { m with loaded := (Mesh.read bytes).2 })

def mesh? (m : StaticMesh) : Option Stage.Mesh := do
  let positions := m.loaded.positions.getD []
  let indices := m.loaded.indices.getD []
  let triangles := indices.length / 3
  let slots ← (triangleSlots m (m.loaded.materials.getD []) triangles).toOption
  let polygons : Stage.Polygons :=
    { materials := some slots
      starts := some ((List.range ((indices.length + 2) / 3)).map (3 * ·))
      totals := some (List.replicate triangles 3)
      vertices := some indices }
  pure
    { name := m.name
      vertexCount := positions.length / 3
      loopCount := indices.length
      polygonCount := triangles
      materials := m.materials.map fun _ => none
      coordinates := some (editorCoordinates Float positions)
      polygons := polygons
      uvs := (m.loaded.uvs.getD []).filter (!·.isEmpty)
      normals := some (negateSecondOfThree (m.loaded.normals.getD [])) }

/-! ## Scenes -/

def onParts (f : Parts → Parts) : Recursive Unit := modify fun w => { w with parts := f w.parts }

def addMaterial (m : String × Material) : Recursive Unit :=
  onParts fun p => { p with materials := p.materials.insert m.1 m.2 }

def placeMesh (m : StaticMesh) : Recursive Nat := do
  let mesh ← (mesh? m : Option Stage.Mesh)
  let place := (← get).stage.meshes.size
  modify fun w => { w with stage := { w.stage with meshes := w.stage.meshes.push mesh } }
  pure place

def addMesh (m : String × StaticMesh) : Recursive Unit := do
  let place ← placeMesh m.2
  onParts fun p => { p with meshes := p.meshes.insert m.1 { m.2 with made := place } }

def rootPart (p : Place) (e : Element) : Recursive Unit := do
  modify fun w => { w with reached := true }
  if isActor e.1.name then
    let a ← (actor? (.element e.1 e.2) : Option Actor)
    onParts fun p => { p with actors := p.actors.push a }
  else match e.1.name with
    | "StaticMesh" => do addMesh (← (staticMesh? p e : Option (String × StaticMesh)))
    | "Texture" => do
      let t ← (texture? e : Option Texture)
      onParts (·.addTexture t)
    | "MasterMaterial" => do addMaterial (← (masterMaterial? e : Option (String × Material)))
    | "UEPbrMaterial" => do addMaterial (← (shaderMaterial? e : Option (String × Material)))
    | "Material" => do addMaterial (← (plainMaterial? e : Option (String × Material)))
    | _ => pure ()

/-- Every child of the root is read once, in the order of the document. -/
def scene (p : Place) (root : Element) : Recursive Unit := do
  guard (root.1.name = "DatasmithUnrealScene")
  (elements root.2).forM (rootPart p)

end Recursive

end SceneExchange.Import
