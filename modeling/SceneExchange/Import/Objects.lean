import SceneExchange.Import.Reading

/-!
# Making the objects of actors

An actor becomes an object below the object of its parent. Cameras and lights look along another
axis in the editor.
-/

namespace SceneExchange.Import

open SceneExchange.Geometry

def rotationMatrix (q : Quaternion) : Matrix Float :=
  let r := q.toRotation
  ⟨⟨r.a.x, r.a.y, r.a.z, 0.0⟩, ⟨r.b.x, r.b.y, r.b.z, 0.0⟩, ⟨r.c.x, r.c.y, r.c.z, 0.0⟩,
    ⟨0.0, 0.0, 0.0, 1.0⟩⟩

def Pose.matrix (p : Pose) : Except Fault (Matrix Float) :=
  match p.location, p.rotation, p.scale with
  | [some x, some y, some z], [some qw, some qx, some qy, some qz], [some sx, some sy, some sz] =>
    .ok (Matrix.shift x y z * rotationMatrix ⟨qw, qx, qy, qz⟩ * .diagonal sx sy sz 1.0)
  | _, _, _ =>
    .error (.wrongKind "float() argument must be a string or a real number, not 'NoneType'")

def lightKind? : String → Option String
  | "PointLight" => some "POINT"
  | "AreaLight" => some "AREA"
  | "DirectionalLight" => some "SUN"
  | "SpotLight" => some "SPOT"
  | _ => none

def looks (kind : String) : Bool := kind == "Camera" || kind == "Light"

namespace Importing

def required {α : Type} (key : String) : Option α → Importing α
  | some a => pure a
  | none => throw (.missingKey (.text key))

def realOf : Datum → Importing Float
  | .real x => pure x
  | .int n => match Number.ofInt? n with
    | some x => pure x
    | none => throw .integerTooLarge
  | .flag b => pure (if b then 1.0 else 0.0)
  | .text s => real s
  | d => throw (.wrongKind ("float() argument must be a string or a real number, not " ++
      Text.quoted d.kindName))

def newLight (a : ActorData) : Importing Stage.Content := do
  let kind ← required "light_type" a.lightKind
  let kind ← required kind (lightKind? kind)
  let place := (← get).stage.lights.size
  onStage fun s => { s with lights := s.lights.push { name := a.name, kind := kind } }
  let color ← required "color" a.color
  onStage fun s => { s with lights := s.lights.modify place fun l => { l with color := some color } }
  let intensity ← realOf (← required "Intensity" (a.numbers.get? "Intensity"))
  onStage fun s =>
    { s with lights := s.lights.modify place fun l => { l with energy := some (12.5 * intensity) } }
  pure (.light place)

def newContent (a : ActorData) : Importing Stage.Content :=
  match a.kind with
  | "ActorMesh" => do
    let name ← required "mesh" a.mesh
    let mesh ← required name ((← get).parts.meshes.get? name)
    pure (.mesh mesh.made)
  | "Light" => newLight a
  | "Camera" => do
    let place := (← get).stage.cameras.size
    onStage fun s => { s with cameras := s.cameras.push a.name }
    pure (.camera place)
  | _ => pure .nothing

def onObject (place : Nat) (f : Stage.Object → Stage.Object) : Importing Unit :=
  onStage fun s => { s with objects := s.objects.modify place f }

def override (object : Nat) (slot : Int) (name : String) : Importing Unit := do
  let slots := ((← get).stage.objects[object]?.getD default).slots
  let place ← lift (Stage.memberAt slots.size slot)
  let set (f : Stage.Slot → Stage.Slot) : Importing Unit :=
    onObject object fun o => { o with slots := o.slots.modify place f }
  set fun s => { s with overrides := true }
  let material ← required name ((← get).parts.materials.get? name)
  let made ← required "bl_mat" material.made
  set fun s => { s with material := some made }

mutual

def linkActor (parent : Option Nat) : Actor → Importing Unit
  | .mk a below => do
    let content ← newContent a
    let stage := (← get).stage
    let place := stage.objects.size
    let object := { stage.newObject a.name content with parent := parent }
    onStage fun s => { s with objects := s.objects.push object }
    let pose ← required "transform" a.pose
    let matrix ← lift pose.matrix
    let matrix ← lift (toEditorView (looks a.kind) matrix)
    onObject place fun o => { o with matrix := some matrix }
    onStage fun s => { s with linked := s.linked.push a.name }
    linkActors (some place) below
    a.overrides.entries.forM fun (slot, name) => override place slot name

def linkActors (parent : Option Nat) : List Actor → Importing Unit
  | [] => pure ()
  | a :: rest => do
    linkActor parent a
    linkActors parent rest

end

end Importing

end SceneExchange.Import
