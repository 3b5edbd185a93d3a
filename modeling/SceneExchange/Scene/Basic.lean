import SceneExchange.Geometry.Engine
import SceneExchange.Material.Document
import SceneExchange.Mesh.Shape

/-!
# Scenes

A scene holds objects, what they contain, and the list of instances in the order in which the
editor visits them. Everything refers to everything else by position.
-/

namespace SceneExchange

open SceneExchange.Geometry

namespace Scene

structure Settings where
  name : String
  fields : Table String Datum
  deriving Inhabited

namespace Settings

def field (s : Settings) (name : String) : Except Fault Datum :=
  match s.fields.get? name with
  | some d => .ok d
  | none => .error (.noProperty "Data" name)

def subfield (group : Datum) (name : String) : Except Fault Datum :=
  match group with
  | .null => .error (.propertyOfNothing name)
  | .dict entries =>
    match entries.find? fun (k, _) => k.display == name with
    | some (_, d) => .ok d
    | none => .error (.noProperty "Data" name)
  | d => .error (.noProperty d.kindName name)

end Settings

inductive Holding where
  | nothing
  | mesh (m : Nat)
  | settings (s : Nat)
  deriving Repr, DecidableEq, Inhabited

structure MaterialSlot where
  ofObject : Bool
  material : Option Nat
  deriving Repr, DecidableEq, Inhabited

structure Object where
  name : String
  kind : String
  content : Holding
  parent : Option Nat
  matrix : Matrix Float
  hidden : Datum
  showsInstancer : Datum
  modifiers : Nat
  slots : List MaterialSlot
  collections : List String
  source : Option Nat
  selected : Bool
  evaluated : Option (Option Nat)
  deriving Inhabited

structure Instance where
  object : Option Nat
  isInstance : Bool
  instanced : Option Nat
  parent : Option Nat
  matrix : Option (Matrix Float)
  ids : List Int
  deriving Inhabited

structure World where
  useNodes : Bool
  tree : Nat
  deriving Inhabited

structure Frame where
  number : Int
  matrices : List (Nat × Matrix Float)
  instances : Option (List Instance)
  deriving Inhabited

end Scene

open Scene in
structure Scene where
  objects : Array Object := #[]
  meshes : Array Mesh.Shape := #[]
  settings : Array Settings := #[]
  libraries : Array String := #[]
  /-- How the host cleans the name of a file. -/
  cleanName : String → String := id
  materials : Array Material.Definition := #[]
  forest : Graph.Forest := ⟨#[]⟩
  images : Array Texture.Image := #[]
  hostImages : List Nat := []
  world : Option World := none
  instances : List Instance := []
  firstFrame : Int := 1
  lastFrame : Int := 1
  currentFrame : Int := 1
  rate : Datum := .int 24
  frames : List Frame := []
  deriving Inhabited

namespace Scene

def object (s : Scene) (i : Nat) : Object := s.objects[i]?.getD default

def demand (s : Scene) (o : Option Nat) (property : String) : Except Fault Object :=
  match o with
  | some i => .ok (s.object i)
  | none => .error (.propertyOfNothing property)

def demandIndex (o : Option Nat) (property : String) : Except Fault Nat :=
  match o with
  | some i => .ok i
  | none => .error (.propertyOfNothing property)

def mesh (s : Scene) (i : Nat) : Mesh.Shape := s.meshes[i]?.getD default

def settingsOf (s : Scene) (o : Object) (property : String) : Except Fault Settings :=
  match o.content with
  | .settings i => .ok (s.settings[i]?.getD default)
  | .mesh _ => .error (.noProperty "Mesh" property)
  | .nothing => .error (.propertyOfNothing property)

def materialName (s : Scene) (m : Nat) : String := (s.materials[m]?.getD default).name

def instanceMatrix (s : Scene) (i : Instance) : Except Fault (Matrix Float) :=
  match i.matrix with
  | some m => .ok m
  | none => do pure (← s.demand i.object "matrix_world").matrix

def showFrame (s : Scene) (number : Int) : Scene :=
  match s.frames.find? (·.number == number) with
  | none => { s with currentFrame := number }
  | some f =>
    { s with
      currentFrame := number
      objects := f.matrices.foldl (fun os (i, m) => os.modify i ({ · with matrix := m })) s.objects
      instances := f.instances.getD s.instances }

end Scene

end SceneExchange
