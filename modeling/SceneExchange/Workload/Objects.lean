import SceneExchange.Mesh.Asset
import SceneExchange.Scene.Actor
import SceneExchange.Scene.Basic
import SceneExchange.Workload.Document
import SceneExchange.Workload.Graph

/-!
# Meshes, textures, actors and scenes of workloads
-/

namespace SceneExchange.Workload

open Scene SceneExchange.Geometry

def assetFolder : String := "assets"

/-! ## Meshes -/

def cube (name : String) : Mesh.Shape where
  name := name
  library := none
  materials := []
  coordinates := (List.range 8).flatMap fun i =>
    [i % 2, i / 2 % 2, i / 4].map fun side => if side == 0 then -1.0 else 1.0
  corners := [0, 1, 3, 0, 3, 2, 4, 6, 7, 4, 7, 5, 0, 4, 5, 0, 5, 1, 2, 3, 7, 2, 7, 6, 0, 2, 6, 0, 6, 4,
    1, 5, 7, 1, 7, 3]
  faceMaterials := none
  cornerNormals := none
  layers := []
  colors := []
  faces := none

def meshAsset (i : Nat) : Except Fault Mesh.Asset := do
  let name := "Bench_Mesh_" ++ toString i
  let materials ← Mesh.materialNames (if i % 2 == 0 then [] else [some "M.at"])
  pure ⟨name, materials, ← Mesh.Raw.ofShape (cube name)⟩

/-! ## Textures -/

def textureFormats : List String := ["PNG", "JPEG", "HDR", "OPEN_EXR", "TARGA"]

def largePicture : List UInt8 := Document.pictureMark ++ List.replicate 600000 0x78

def textureImage (file : String) (i : Nat) : Texture.Image :=
  ⟨"Tex_" ++ toString i, cycle textureFormats i, 4, i % 2 == 0,
    if i % 3 == 0 then some (Document.pictureMark ++ Bytes.ofText "fake") else none,
    if i % 3 == 1 then file else "", id⟩

def textureEntry (i : Nat) : Texture.Entry :=
  ⟨"Tex_" ++ toString i, i, if i % 3 == 1 then "NORMAL" else Texture.defaultHint⟩

/-! ## Actors -/

def actorTransform : String := "\t<Transform tx=\"0\"/>\n"

def placed : Placed := ⟨"\t<T/>\n", "\t<T/>\n", none⟩

def childActor (i : Nat) : Actor :=
  .mk { name := "child_" ++ toString i, transform := actorTransform } []

def rootActor (children : Nat) : Actor :=
  .mk { kind := some "ActorMesh"
        name := "root"
        layer := some "Layer0"
        attributes := [" visible=\"True\""]
        fields := ["\t<mesh name=\"m\"/>\n"]
        transform := actorTransform
        instances := .ofList [("grid", [placed, placed, placed]), ("single", [placed])] }
    ((List.range children).map childActor)

/-! ## Scenes -/

def standingKind (i : Nat) : String × Holding :=
  if i % 8 == 7 then ("ARMATURE", .nothing) else ("MESH", .mesh 0)

def standing (i : Nat) : Object where
  name := "Obj_" ++ toString i
  kind := (standingKind i).1
  content := (standingKind i).2
  parent := none
  matrix := { (Matrix.identity : Matrix Float) with r0 := ⟨1.0, 0.0, 0.0, i.toFloat⟩ }
  hidden := .flag false
  showsInstancer := .flag true
  modifiers := 0
  slots := []
  collections := ["Collection"]
  source := some i
  selected := false
  evaluated := none

def rowScene (count : Nat) : Scene where
  objects := ((List.range count).map standing).toArray
  meshes := #[cube "Cube"]
  instances := (List.range count).map fun i => ⟨some i, false, none, none, none, []⟩

def stillScene (frames : Nat) : Scene := { rowScene 1 with lastFrame := frames }

end SceneExchange.Workload
