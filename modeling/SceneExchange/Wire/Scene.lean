import SceneExchange.Scene.Basic
import SceneExchange.Scene.Sketch
import SceneExchange.Wire.Graph

/-!
# Scenes described in JSON
-/

namespace SceneExchange.Wire

open SceneExchange.Geometry (Matrix Row)

def row (j : Json) : Row Float :=
  let xs := items j
  ⟨real (nth xs 0), real (nth xs 1), real (nth xs 2), real (nth xs 3)⟩

def matrix? : Json → Option (Matrix Float)
  | .arr [a, b, c, d] => some ⟨row a, row b, row c, row d⟩
  | _ => none

def matrixOut (m : Matrix Float) : Json := .arr (m.toList.map double)

def shape (libraries materials : List String) (id : String) (j : Json) : Mesh.Shape :=
  { name := text (field j "name") id
    library := placeOf libraries (field j "library")
    materials := (items (field j "materials")).map (placeOf materials)
    coordinates := reals (field j "co")
    corners := (items (field j "tris")).map count
    faceMaterials := (j.member? "mat").map fun v => (items v).map count
    cornerNormals := (j.member? "normals").map reals
    layers := (items (field j "uvs")).zipIdx.map fun (u, i) =>
      ⟨text (field u "name") ("UV" ++ toString i), bool (field u "active") false,
        reals (field u "uv")⟩
    colors := (items (field j "colors")).map reals
    faces := match field j "polygons" with
      | .int n => some n.toNat
      | _ => none }

def object (ids meshes settings materials : List String) (index : Nat) (id : String) (j : Json) :
    Scene.Object :=
  { name := text (field j "name") id
    kind := text (field j "type") "EMPTY"
    content := match placeOf meshes (field j "mesh"), placeOf settings (field j "data") with
      | some m, _ => .mesh m
      | none, some s => .settings s
      | none, none => .nothing
    parent := placeOf ids (field j "parent")
    matrix := (matrix? (field j "matrix")).getD Matrix.identity
    hidden := datumOr j "hide_render" (.flag false)
    showsInstancer := datumOr j "show_instancer" (.flag true)
    modifiers := count (field j "modifiers")
    slots := (items (field j "slots")).map fun s =>
      ⟨text (field s "link") "DATA" == "OBJECT", placeOf materials (field s "material")⟩
    collections := texts (field j "collections")
    source := if has j "original" then placeOf ids (field j "original") else some index
    selected := bool (field j "selected") true
    evaluated := (j.member? "to_mesh").map (placeOf meshes) }

def appearance (ids : List String) (j : Json) : Scene.Instance :=
  let object := placeOf ids (field j "object")
  let isInstance := bool (field j "is_instance") false
  { object := object
    isInstance := isInstance
    instanced := if has j "instance_object" then placeOf ids (field j "instance_object")
      else if isInstance then object else none
    parent := placeOf ids (field j "parent")
    matrix := matrix? (field j "matrix")
    ids := (items (field j "pid")).map (int · 0) }

def settings (id : String) (j : Json) : Scene.Settings :=
  ⟨id, Table.ofList ((members j).map fun (k, v) => (k, if k == "color" then tupled v else datum v))⟩

def frame (ids : List String) (number : String) (j : Json) : Scene.Frame :=
  { number := (Number.readInteger? number).getD 0
    matrices := (members (field j "objects")).filterMap fun (id, m) =>
      match ids.findIdx? (· == id), matrix? m with
      | some i, some m => some (i, m)
      | _, _ => none
    instances := (j.member? "instances").map fun v => (items v).map (appearance ids) }

def objectIds (j : Json) : List String := (members (field j "objects")).map (·.1)

def objectPlace (j : Json) (id : String) : Nat := ((objectIds j).findIdx? (· == id)).getD 0

def cleanName (s : String) : String :=
  String.ofList (s.toList.map fun c =>
    if c.isAlphanum || c == '_' || c == '-' then c else '_')

def scene (folders : Folders) (j : Json) : Scene :=
  let s := shading folders j
  let objects := members (field j "objects")
  let ids := objectIds j
  let meshes := members (field j "meshes")
  let blocks := members (field j "data")
  let libraries := members (field j "libraries")
  let range := items (field j "frame_range")
  { objects := (objects.zipIdx.map fun ((id, o), i) =>
      object ids (meshes.map (·.1)) (blocks.map (·.1)) s.materialIds i id o).toArray
    meshes := (meshes.map fun (id, m) =>
      shape (libraries.map (·.1)) s.materialIds id m).toArray
    settings := (blocks.map fun (id, b) => settings id b).toArray
    libraries := (libraries.map fun (_, p) => text p "").toArray
    cleanName := cleanName
    materials := s.materials
    forest := s.forest
    images := s.images
    hostImages := s.hostImages
    world := match field j "world" with
      | .obj ms => some ⟨bool (field (.obj ms) "use_nodes") true, s.forest.trees.size - 1⟩
      | _ => none
    instances := (items (field j "instances")).map (appearance ids)
    firstFrame := int (nth range 0) 1
    lastFrame := int (nth range 1) 1
    currentFrame := int (field j "frame_current") 1
    rate := datumOr j "fps" (.int 24)
    frames := (members (field j "frames")).map fun (k, f) => frame ids k f }

def actorHead (h : Scene.ActorHead) : Json :=
  .obj ([("name", .str h.name), ("attrib", strings h.attributes), ("fields", strings h.fields),
    ("transform", .str h.transform), ("children", .arr []), ("instances", .obj [])] ++
    member "type" .str h.kind ++ member "layer" .str h.layer)

def placed (j : Json) : Scene.Placed :=
  let parts := items j
  ⟨text (nth parts 0) "", text (nth parts 1) "", match nth parts 2 with
    | .arr xs => some (xs.map (text · ""))
    | _ => none⟩

mutual

def sketch : Json → Scene.Sketch
  | .obj ms =>
    let j := Json.obj ms
    .mk (text? j "type") (text? j "name") (text? j "layer") ((j.member? "attrib").map texts)
      ((j.member? "fields").map texts) (text? j "transform") (sketchChildren ms)
      ((j.member? "instances").map fun v =>
        Table.ofList ((members v).map fun (k, ps) => (k, (items ps).map placed)))
  | _ => .mk none none none none none none none none

def sketchChildren : List (String × Json) → Option (List Scene.Sketch)
  | [] => none
  | (k, .arr xs) :: rest =>
    match sketchChildren rest with
    | some children => some children
    | none => if k == "children" then some (sketches xs) else none
  | (k, _) :: rest =>
    match sketchChildren rest with
    | some children => some children
    | none => if k == "children" then some [] else none

def sketches : List Json → List Scene.Sketch
  | [] => []
  | j :: rest => sketch j :: sketches rest

end

end SceneExchange.Wire
