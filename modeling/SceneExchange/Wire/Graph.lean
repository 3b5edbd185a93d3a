import SceneExchange.Material.Document
import SceneExchange.Wire.Basic

/-!
# Images, node trees and materials described in JSON

Things are described by identifier and refer to each other by it.
-/

namespace SceneExchange.Wire

structure Folders where
  given : String
  saved : String

def image (folders : Folders) (id : String) (j : Json) : Texture.Image :=
  { name := text (field j "name") id
    format := text (field j "format") "PNG"
    channels := int (field j "channels") 4
    isData := bool (field j "is_data") false
    packed := match field j "packed" with
      | .str s => some (bytesOfHex s.toList)
      | _ => none
    raw := match field j "source", field j "saved_as" with
      | .str s, _ => folders.given ++ "/" ++ s
      | _, .str s => folders.saved ++ "/" ++ s
      | _, _ => "" }

def bareImage (name : String) : Texture.Image := ⟨name, "PNG", 4, false, none, "", id⟩

def socket (j : Json) : Graph.Socket :=
  let parts := items j
  let name := text (nth parts 0) ""
  let kind := text (nth parts 1) ""
  let extra := nth parts 3
  { name := name
    kind := .ofName kind
    value := socketValue (nth parts 2)
    identifier := text (field extra "id") name
    enabled := bool (field extra "enabled") true
    plainVector := kind == "VECTOR" && !bool (field extra "subclass") false }

def mapping (j : Json) : Graph.TextureMapping :=
  let axes : List Datum := match field j "axes" with
    | .str s => s.toList.map fun c => .text (String.singleton c)
    | .arr xs => data xs
    | _ => [.text "X", .text "Y", .text "Z"]
  let vector (k : String) (default : List Float) := if has j k then reals (field j k) else default
  { axisX := axes[0]?.getD .null
    axisY := axes[1]?.getD .null
    axisZ := axes[2]?.getD .null
    location := vector "loc" [0.0, 0.0, 0.0]
    rotation := vector "rot" [0.0, 0.0, 0.0]
    scale := vector "scale" [1.0, 1.0, 1.0]
    vectorType := datumOr j "type" (.text "POINT") }

def slot {α : Type} (j : Json) (k : String) (f : Json → Option α) : Graph.Slot α :=
  match j.member? k with
  | none => .absent
  | some v =>
    match f v with
    | some a => .given a
    | none => .empty

def ramp : Json → Option Graph.Ramp
  | .arr [a, b] => some ⟨fun p => ((reals a).zip (reals b)).map fun (x, y) => x + (y - x) * p⟩
  | _ => none

def curve (j : Json) : Graph.Curve :=
  match items j with
  | [a, b] => ⟨fun p => real a + real b * p⟩
  | _ => ⟨fun _ => 0.0⟩

def node (images trees : List String) (j : Json) : Graph.Node :=
  let id := text (field j "id") ""
  { kind := text (field j "type") ""
    name := text (field j "name") id
    label := text (field j "label") ""
    inputs := (items (field j "in")).map socket
    outputs := (items (field j "out")).map socket
    settings := Table.ofList ((members (field j "props")).map fun (k, v) => (k, datum v))
    image := slot j "image" (placeOf images)
    tree := slot j "tree" (placeOf trees)
    ramp := slot j "ramp" ramp
    curves := slot j "curves" fun
      | .arr cs => some (cs.map curve)
      | _ => none
    mapping := mapping (field j "mapping") }

def tree (images trees : List String) (j : Json) : Graph.Tree :=
  let nodes := items (field j "nodes")
  let ids := nodes.map fun n => text (field n "id") ""
  let index (id : Json) : Nat :=
    ((ids.zipIdx.reverse.find? fun (i, _) => i == text id "").map (·.2)).getD ids.length
  { nodes := (nodes.map (node images trees)).toArray
    links := (items (field j "links")).map fun l =>
      let ends := items l
      ⟨index (nth ends 0), count (nth ends 1), index (nth ends 2), count (nth ends 3)⟩
    outputs := Table.ofList ((members (field j "output")).filterMap fun (k, v) =>
      match v with
      | .str _ => some (k, index v)
      | _ => none) }

def material (tree : Nat) (id : String) (j : Json) : Material.Definition :=
  { name := text (field j "name") id
    useNodes := bool (field j "use_nodes") true
    tree := tree
    blendMethod := datumOr j "blend" (.text "OPAQUE")
    alphaThreshold := datumOr j "alpha_threshold" (.real 0.5)
    backfaceCulling := datumOr j "culling" (.flag false)
    diffuse := if has j "diffuse" then socketValue (field j "diffuse")
      else .tuple [.real 0.8, .real 0.8, .real 0.8, .int 1]
    roughness := datumOr j "roughness" (.real 0.4)
    metallic := datumOr j "metallic" (.int 0)
    specular := datumOr j "specular" (.real 0.5) }

structure Shading where
  imageIds : List String
  images : Array Texture.Image
  hostImages : List Nat
  forest : Graph.Forest
  materialIds : List String
  materials : Array Material.Definition

def shading (folders : Folders) (j : Json) : Shading :=
  let images := members (field j "images")
  let imageIds := images.map (·.1)
  let existing := (texts (field j "existing_images")).map bareImage
  let trees := members (field j "trees")
  let treeIds := trees.map (·.1)
  let materials := members (field j "materials")
  let all := trees.map (·.2) ++ materials.map (fun (_, m) => field m "tree") ++
    [field (field j "world") "tree"]
  { imageIds := imageIds
    images := (images.map (fun (id, i) => image folders id i) ++ existing).toArray
    hostImages := (List.range existing.length).map (images.length + ·)
    forest := ⟨(all.map (tree imageIds treeIds)).toArray⟩
    materialIds := materials.map (·.1)
    materials := (materials.zipIdx.map fun ((id, m), i) =>
      material (trees.length + i) id m).toArray }

namespace Shading

def image (s : Shading) (id : String) : Nat := (s.imageIds.findIdx? (· == id)).getD 0

def material? (s : Shading) (j : Json) : Option Material.Definition :=
  (placeOf s.materialIds j).bind (s.materials[·]?)

def session (s : Shading) : Material.Session := { images := s.images, hostImages := s.hostImages }

end Shading

def catalog (images : Array Texture.Image) (c : Texture.Catalog) : Json :=
  .arr (c.entries.map fun (k, e) =>
    .arr [.str k, .str e.name, .str (images[e.image]?.getD default).name, .str e.hint])

end SceneExchange.Wire
