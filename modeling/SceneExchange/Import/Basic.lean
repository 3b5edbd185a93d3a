import SceneExchange.Mesh.Reader
import SceneExchange.Stage.Basic
import SceneExchange.Table

/-!
# What a scene file says

The parts of a scene as they are read: actors, materials, static meshes and textures.
-/

namespace SceneExchange.Import

structure Pose where
  location : List (Option Float)
  rotation : List (Option Float)
  scale : List (Option Float)
  deriving Inhabited

structure ActorData where
  name : String
  kind : String
  lightKind : Option String := none
  pose : Option Pose := none
  mesh : Option String := none
  overrides : Table Int String := .empty
  color : Option Datum := none
  numbers : Table String Datum := .empty
  words : Table String String := .empty
  deriving Inhabited

inductive Actor where
  | mk (data : ActorData) (children : List Actor)

instance : Inhabited Actor := ⟨.mk default []⟩

namespace Actor

def data : Actor → ActorData
  | .mk data _ => data

def children : Actor → List Actor
  | .mk _ children => children

end Actor

structure Source where
  expression : Int
  output : Int
  deriving Repr, DecidableEq, Inhabited

structure Expression where
  tag : String
  attributes : List (String × String)
  inputs : Table String Source := .empty
  properties : Table String (String × String) := .empty
  deriving Inhabited

namespace Expression

def attribute? (e : Expression) (key : String) : Option String := e.attributes.lookup key

def attributeOf (e : Expression) (key : String) : Except Fault String :=
  match e.attribute? key with
  | some v => .ok v
  | none => .error (.missingKey (.text key))

def datum (e : Expression) : Datum :=
  .tuple [.text e.tag, .record (e.attributes.map fun (k, v) => (k, .text v)),
    .record (e.inputs.entries.map fun (k, s) => (k, .tuple [.int s.expression, .int s.output])),
    .record (e.properties.entries.map fun (k, t, v) => (k, .tuple [.text t, .text v]))]

end Expression

inductive Field where
  | text (s : String)
  | inputs (inputs : Table String Source)
  | expressions (es : List Expression)

structure Material where
  fields : Table String Field
  made : Option Nat := none
  deriving Inhabited

namespace Material

def ofTag (tag name : String) : Material :=
  ⟨.ofList [("name", .text name), ("type", .text tag)], none⟩

def set (m : Material) (key : String) (f : Field) : Material :=
  { m with fields := m.fields.insert key f }

def text? (m : Material) (key : String) : Option String :=
  match m.fields.get? key with
  | some (.text s) => if s.isEmpty then none else some s
  | _ => none

def label (m : Material) (key : String) : String := (m.text? key).getD ""

end Material

structure Texture where
  name : String
  file : String
  path : String
  mode : Option String
  image : Option (Option Nat) := none
  deriving Inhabited

namespace Texture

def text (t : Texture) (stage : Stage) : String :=
  let image : List (String × Datum) := match t.image with
    | none => []
    | some none => [("image", .null)]
    | some (some i) => [("image", .shown (stage.imageText i))]
  (Datum.record ([("name", .text t.name), ("filename", .text t.file), ("path", .text t.path),
    ("mode", match t.mode with
      | some m => .text m
      | none => .null)] ++ image)).literal

end Texture

/-- A static mesh: the material of each slot as its identifier and name, and the slot of each
identifier. -/
structure StaticMesh where
  name : String
  path : Option String := none
  materials : Array (Option (String × String)) := #[none]
  slots : Table Int Nat := ⟨[(0, 0)]⟩
  loaded : Mesh.Loaded := {}
  made : Nat := 0
  deriving Inhabited

structure Parts where
  actors : Array Actor := #[]
  materials : Table String Material := .empty
  meshes : Table String StaticMesh := .empty
  textures : Array Texture := #[]
  textureNames : Table String Nat := .empty
  textureFiles : Table String Nat := .empty
  deriving Inhabited

end SceneExchange.Import
