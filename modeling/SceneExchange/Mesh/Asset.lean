import SceneExchange.Bytes.Digest
import SceneExchange.Files
import SceneExchange.Markup.Element
import SceneExchange.Mesh.Writer
import SceneExchange.Name

/-!
# Mesh assets

A mesh asset has a name, the names of its materials and its raw mesh. It is saved as a mesh file
and described by an element that carries the digest of the file.
-/

namespace SceneExchange.Mesh

structure Asset where
  name : String
  materials : List String
  raw : Raw
  deriving Inhabited

def defaultMaterial : String := "DefaultMaterial"

def materialNames (materials : List (Option String)) : Except Fault (List String) :=
  if materials.isEmpty then .ok [defaultMaterial]
  else materials.mapM fun
    | some name => Name.legal name
    | none => .ok defaultMaterial

namespace Asset

def path (a : Asset) (folder : String) : String := Path.join folder (a.name ++ ".udsmesh")

def bytes (a : Asset) : List UInt8 := file a.name a.raw

def element (a : Asset) (folder : String) : Markup.Element :=
  let materials := a.materials.zipIdx.map fun (m, i) =>
    Markup.Content.element (.leaf "Material" [("id", .int i), ("name", .text m)])
  let path := String.ofList ((a.path folder).toList.map fun c => if c.toNat == 92 then '/' else c)
  .mk "StaticMesh" [("label", .text a.name), ("name", .text a.name)] (materials ++ [
    .element (.leaf "file" [("path", .text path)]),
    .element (.leaf "LightmapUV" [("value", .text "-1")]),
    .element (.leaf "Hash" [("value", .text (Bytes.Digest.sha1 a.bytes))])])

def save (a : Asset) (files : Files) (base folder : String) :
    Except Fault (Files × Markup.Element) := do
  let files ← files.write (Path.join base (a.path folder)) a.bytes
  pure (files, a.element folder)

end Asset

end SceneExchange.Mesh
