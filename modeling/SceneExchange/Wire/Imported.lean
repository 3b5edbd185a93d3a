import SceneExchange.Import
import SceneExchange.Wire.Scene

/-!
# What was imported, in JSON
-/

namespace SceneExchange.Wire

open Number (Single)

def singles (ss : List Single) : Json := words "float32" (ss.map (·.bits))

def loaded (m : Mesh.Loaded) : List (String × Json) :=
  member "material_indices" (words "int32") m.materials ++
  member "smoothing_groups" (words "int32") m.smoothing ++
  member "vertices" singles m.positions ++
  member "indices" (words "int32") m.indices ++
  member "normals" singles m.normals ++
  member "uvs" (fun us => .arr (us.map doubles)) m.uvs ++
  member "vertex_colors" (fun cs => column "uint8" [cs.length, 4] (cs.flatMap (·.bytes))) m.colors

def pose (p : Import.Pose) : Json :=
  let numbers (xs : List (Option Float)) : Json := .arr (xs.map (orNull double))
  .arr [numbers p.location, numbers p.rotation, numbers p.scale]

def actorData (a : Import.ActorData) : List (String × Json) :=
  [("name", .str a.name), ("type", .str a.kind)] ++ member "light_type" .str a.lightKind ++
  member "transform" pose a.pose ++ member "mesh" .str a.mesh ++
  (if a.overrides.isEmpty then [] else
    [("material_overrides", .obj (a.overrides.entries.map fun (k, v) => (toString k, .str v)))]) ++
  member "color" encode a.color ++ a.numbers.entries.map (fun (k, d) => (k, encode d)) ++
  a.words.entries.map (fun (k, s) => (k, .str s))

mutual

def actor : Import.Actor → Json
  | .mk a below => .obj (actorData a ++ [("children", .arr (actors below))])

def actors : List Import.Actor → List Json
  | [] => []
  | a :: rest => actor a :: actors rest

end

def source (s : Import.Source) : Json := .arr [.int s.expression, .int s.output]

def materialField : Import.Field → Json
  | .text s => .str s
  | .inputs t => .obj (t.entries.map fun (k, s) => (k, source s))
  | .expressions es => .arr (es.map fun e => encode e.datum)

def importedMaterial (m : Import.Material) : Json :=
  .obj ((m.fields.entries.filter fun (k, _) => k ≠ "bl_mat" && k ≠ "bf_nodes").map fun (k, f) =>
    (k, materialField f))

def importedTexture (s : Stage) (t : Import.Texture) : Json :=
  .obj ([("name", .str t.name), ("filename", .str t.file), ("path", .str t.path),
    ("mode", orNull .str t.mode)] ++ member "image" (orNull fun i => .str (s.imageText i)) t.image)

def staticMesh (m : Import.StaticMesh) : Json :=
  .obj ([("name", .str m.name),
    ("materials", .arr (m.materials.toList.map (orNull fun (id, name) => strings [id, name]))),
    ("materials_inv", .obj (m.slots.entries.map fun (k, i) => (toString k, .int i)))] ++
    member "path" .str m.path ++ loaded m.loaded)

def parts (s : Import.State) : Json :=
  if !s.reached then .null
  else
    let p := s.parts
    .obj [("actors", .arr (actors p.actors.toList)),
      ("materials", .arr (p.materials.values.map importedMaterial)),
      ("material_keys", strings p.materials.keys),
      ("meshes", .arr (p.meshes.values.map staticMesh)),
      ("textures", .arr (p.textureNames.values.map fun i => importedTexture s.stage (p.texture i))),
      ("filenames", strings p.textureFiles.keys)]

def socketDefault : Stage.SocketDefault → Json
  | .real x => double x
  | .color c => .arr (c.toList.map double)

def stageNode (s : Stage) (n : Stage.Node) : Json :=
  let defaults (k : String) (ds : List (Nat × Stage.SocketDefault)) : List (String × Json) :=
    if ds.isEmpty then []
    else [(k, .arr (ds.map fun (i, d) => .arr [.int i, socketDefault d]))]
  .arr [.str n.kind.title, .str n.name, .str n.label,
    .obj (member "operation" .str n.operation ++
      member "image" (orNull fun i => .str (s.imageText i)) n.image ++
      defaults "inputs" n.inputDefaults ++ defaults "outputs" n.outputDefaults)]

def stageLink (l : Stage.Link) : Json :=
  .arr [.int l.source.node, .int l.source.place, .int l.target.node, .int l.target.place]

def stageMaterial (s : Stage) (m : Stage.Material) : Json :=
  .obj [("name", .str m.name), ("use_nodes", .bool m.usesNodes),
    ("diffuse", orNull (fun ds => .arr (encodeAll ds)) m.diffuse), ("blend", orNull .str m.blend),
    ("nodes", .arr (m.nodes.toList.map (stageNode s))),
    ("links", .arr (m.links.toList.map stageLink))]

def polygons (p : Stage.Polygons) : Json :=
  .obj (member "material_index" (fun bs => column "uint8" [bs.length] bs) p.materials ++
    member "loop_start" longs p.starts ++ member "loop_total" longs p.totals ++
    member "vertices" (words "int32") p.vertices)

def materialName (s : Stage) (m : Option Nat) : Json := orNull (fun i => .str (s.materialText i)) m

def stageMesh (s : Stage) (m : Stage.Mesh) : Json :=
  .obj [("name", .str m.name),
    ("sizes", .arr [.int m.vertexCount, .int m.loopCount, .int m.polygonCount]),
    ("materials", .arr (m.materials.toList.map (materialName s))),
    ("co", orNull singles m.coordinates), ("polygons", polygons m.polygons),
    ("uvs", .arr (m.uvs.map doubles)), ("normals", orNull singles m.normals),
    ("attributes", .arr [])]

def stageObject (s : Stage) (o : Stage.Object) : Json :=
  .obj [("name", .str o.name), ("data", orNull .str (s.contentName o.content)),
    ("parent", orNull .str (o.parent.bind fun p => (s.objects[p]?).map (·.name))),
    ("matrix", orNull matrixOut o.matrix),
    ("slots", .arr (o.slots.toList.map fun l =>
      .arr [.str (if l.overrides then "OBJECT" else "DATA"), materialName s l.material]))]

def stageLight (l : Stage.Light) : Json :=
  .obj ([("name", .str l.name), ("type", .str l.kind)] ++ member "color" encode l.color ++
    member "energy" double l.energy)

def stageObjects (s : Stage) : List (String × Json) :=
  [("objects", .arr (s.objects.toList.map (stageObject s))),
    ("lights", .arr (s.lights.toList.map stageLight)), ("cameras", strings s.cameras.toList),
    ("linked", strings s.linked.toList)]

def stage (s : Stage) : Json :=
  .obj ([("images", .arr (s.images.toList.map fun i => strings [i.name, i.colorSpace])),
    ("meshes", .arr (s.meshes.toList.map (stageMesh s))),
    ("materials", .arr (s.materials.toList.map (stageMaterial s)))] ++ stageObjects s)

/-! ## Actors described in JSON -/

def component : Json → Option Float
  | .null => none
  | j => some (real j)

def poseIn (j : Json) : Import.Pose :=
  let parts := items j
  let numbers (i : Nat) : List (Option Float) := (items (nth parts i)).map component
  ⟨numbers 0, numbers 1, numbers 2⟩

def actorDataIn (j : Json) : Import.ActorData :=
  { name := text (field j "name") ""
    kind := text (field j "type") ""
    lightKind := text? j "light_type"
    pose := (j.member? "transform").map poseIn
    mesh := text? j "mesh"
    overrides := Table.ofList ((members (field j "material_overrides")).map fun (k, v) =>
      ((Number.readInteger? k).getD 0, text v ""))
    color := (j.member? "color").map tupled
    numbers := Table.ofList ((members j).map fun (k, v) => (k, datum v)) }

mutual

def actorIn : Json → Import.Actor
  | .obj ms => .mk (actorDataIn (.obj ms)) (childrenIn ms)
  | j => .mk (actorDataIn j) []

def childrenIn : List (String × Json) → List Import.Actor
  | [] => []
  | (k, .arr xs) :: rest => if k == "children" then actorsIn xs else childrenIn rest
  | _ :: rest => childrenIn rest

def actorsIn : List Json → List Import.Actor
  | [] => []
  | j :: rest => actorIn j :: actorsIn rest

end

def stageIn (materials : List String) (meshes : List (String × Json)) : Import.State :=
  { stage :=
      { materials := (materials.map fun m => { name := m }).toArray
        meshes := (meshes.map fun (name, n) =>
          { name := name, materials := Array.replicate (count n) none }).toArray }
    parts :=
      { materials := Table.ofList (materials.zipIdx.map fun (m, i) =>
          (m, { Import.Material.ofTag "Material" m with made := some i }))
        meshes := Table.ofList (meshes.zipIdx.map fun ((name, _), i) =>
          (name, { name := name, made := i })) } }

end SceneExchange.Wire
