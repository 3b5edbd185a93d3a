import SceneExchange.Geometry.Matrix
import SceneExchange.Number.Single
import SceneExchange.Stage.Node

/-!
# What is made in the editor

Data blocks are known by their place among those of their kind.
-/

namespace SceneExchange.Stage

open SceneExchange.Geometry Number

structure Image where
  name : String
  colorSpace : String := "sRGB"
  deriving Repr, DecidableEq, Inhabited

structure Polygons where
  materials : Option (List UInt8) := none
  starts : Option (List Nat) := none
  totals : Option (List Nat) := none
  vertices : Option (List UInt32) := none
  deriving Inhabited

structure Mesh where
  name : String
  vertexCount : Nat := 0
  loopCount : Nat := 0
  polygonCount : Nat := 0
  materials : Array (Option Nat) := #[]
  coordinates : Option (List Single) := none
  polygons : Polygons := {}
  uvs : List (List UInt64) := []
  normals : Option (List Single) := none
  deriving Inhabited

structure Light where
  name : String
  kind : String
  color : Option Datum := none
  energy : Option Float := none
  deriving Inhabited

inductive Content where
  | nothing
  | mesh (place : Nat)
  | light (place : Nat)
  | camera (place : Nat)
  deriving Repr, DecidableEq, Inhabited

structure Slot where
  overrides : Bool := false
  material : Option Nat
  deriving Repr, DecidableEq, Inhabited

structure Object where
  name : String
  content : Content
  parent : Option Nat := none
  matrix : Option (Matrix Float) := none
  slots : Array Slot := #[]
  deriving Inhabited

end SceneExchange.Stage

namespace SceneExchange

structure Stage where
  images : Array Stage.Image := #[]
  materials : Array Stage.Material := #[]
  meshes : Array Stage.Mesh := #[]
  lights : Array Stage.Light := #[]
  cameras : Array String := #[]
  objects : Array Stage.Object := #[]
  linked : Array String := #[]
  /-- The text that every image is shown by, where images are not shown by their names. -/
  imageLabel : Option String := none
  deriving Inhabited

namespace Stage

def imageText (s : Stage) (image : Nat) : String :=
  s.imageLabel.getD ("bpy.data.images[" ++ Text.quoted (s.images[image]?.getD default).name ++ "]")

def materialText (s : Stage) (material : Nat) : String :=
  "bpy.data.materials[" ++ Text.quoted (s.materials[material]?.getD default).name ++ "]"

def contentName (s : Stage) : Content → Option String
  | .nothing => none
  | .mesh i => (s.meshes[i]?).map (·.name)
  | .light i => (s.lights[i]?).map (·.name)
  | .camera i => s.cameras[i]?

def newObject (s : Stage) (name : String) (content : Content) : Object :=
  let slots := match content with
    | .mesh i => (s.meshes[i]?.getD default).materials.map fun m => { material := m }
    | _ => #[]
  { name := name, content := content, slots := slots }

end Stage

end SceneExchange
