import SceneExchange.Import.Reading

/-!
# Reading static meshes and making their meshes

The first slot of a mesh is there from the start, for the identifier zero. Every other identifier
gets the next slot when it is first met. A triangle takes the slot of its identifier, or the first
one if its identifier has none. What the host drops when it validates a mesh is still there in these.
-/

namespace SceneExchange.Import

open Markup (Tag)
open Number (Single)

namespace StaticMesh

def addMaterial (m : StaticMesh) (id name : String) (number : Int) : StaticMesh :=
  match m.slots.get? number with
  | some slot => { m with materials := m.materials.set! slot (some (id, name)) }
  | none =>
    { m with
      slots := m.slots.insert number m.materials.size
      materials := m.materials.push (some (id, name)) }

def slotOf (m : StaticMesh) (number : Int) : Nat := (m.slots.get? number).getD 0

end StaticMesh

def signed (w : UInt32) : Int :=
  if w.toNat < Number.twoPow 31 then w.toNat else (w.toNat : Int) - Number.twoPow 32

def negateSecondOfThree : List Single → List Single
  | x :: y :: z :: rest => x :: y.negate :: z :: negateSecondOfThree rest
  | [x, y] => [x, y.negate]
  | l => l

section Scaling

open Mesh.Stored

variable (α : Type) [Mesh.Stored α]

def inMetres (s : Single) : Single :=
  if s.isNaN then ⟨s.bits ||| 0x400000⟩ else store (load s * rounded (Geometry.Scalar.ratio 1 100 : α))

def editorCoordinates (positions : List Single) : List Single :=
  negateSecondOfThree (positions.map (inMetres α))

end Scaling

def triangleSlots (m : StaticMesh) (identifiers : List UInt32) (count : Nat) :
    Except Fault (List UInt8) :=
  let slots := (identifiers.take count).map fun w => (m.slotOf (signed w)).toUInt8
  if identifiers.length < count then .error (.axisOutOfBounds identifiers.length identifiers.length)
  else .ok slots

namespace Importing

def meshMaterial (m : StaticMesh) (tag : Tag) : Importing StaticMesh := do
  close tag
  let id ← attributeOf tag "id"
  let name ← attributeOf tag "name"
  pure (m.addMaterial id name (← integer id))

def meshPart (m : StaticMesh) (tag : Tag) : Importing StaticMesh := do
  match tag.name with
  | "Material" => meshMaterial m tag
  | "file" => do
    close tag
    pure { m with path := some ((← read).folder ++ "/" ++ (← attributeOf tag "path")) }
  | _ => do
    ignore tag
    pure m

def onMesh (place : Nat) (f : Stage.Mesh → Stage.Mesh) : Importing Unit :=
  onStage fun s => { s with meshes := s.meshes.modify place f }

def makeMesh (m : StaticMesh) : Importing Nat := do
  let place := (← get).stage.meshes.size
  let positions := m.loaded.positions.getD []
  let indices := m.loaded.indices.getD []
  let triangles := indices.length / 3
  let mesh : Stage.Mesh :=
    { name := m.name
      vertexCount := positions.length / 3
      loopCount := indices.length
      polygonCount := triangles
      materials := m.materials.map fun _ => none
      coordinates := some (editorCoordinates Float positions) }
  onStage fun s => { s with meshes := s.meshes.push mesh }
  let slots ← lift (triangleSlots m (m.loaded.materials.getD []) triangles)
  let polygons : Stage.Polygons :=
    { materials := some slots
      starts := some ((List.range ((indices.length + 2) / 3)).map (3 * ·))
      totals := some (List.replicate triangles 3)
      vertices := some indices }
  onMesh place fun b =>
    { b with
      polygons := polygons
      uvs := (m.loaded.uvs.getD []).filter (!·.isEmpty)
      normals := some (negateSecondOfThree (m.loaded.normals.getD [])) }
  pure place

def staticMesh (tag : Tag) : Importing Unit := do
  let name ← attributeOf tag "name"
  let m ← children tag { name := name } meshPart
  let some path := m.path | throw (.missingKey (.text "path"))
  let bytes ← lift ((← read).files.read path)
  let (result, loaded) := Mesh.read bytes
  lift result
  let m := { m with loaded := loaded }
  let place ← makeMesh m
  onParts fun p => { p with meshes := p.meshes.insert name { m with made := place } }

def linkMesh (m : StaticMesh) : Importing Unit := do
  let materials := (← get).parts.materials
  let slots := m.materials.map fun slot =>
    slot.bind fun (_, name) => (materials.get? name).bind (·.made)
  onMesh m.made fun b => { b with materials := slots }

end Importing

end SceneExchange.Import
