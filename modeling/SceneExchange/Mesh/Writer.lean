import SceneExchange.Bytes.Layout
import SceneExchange.Mesh.Raw

/-!
# Mesh files

A mesh file is a wrapper around the bytes of one raw mesh. Sizes stand in front of what they
measure: that of the file after the first eight bytes, and that of the raw mesh, twice.
-/

namespace SceneExchange.Mesh

open Bytes

namespace Triple

def bytes (t : Triple) : List UInt8 := word t.x.bits ++ word t.y.bits ++ word t.z.bits

end Triple

namespace Uv

def bytes (p : Uv) : List UInt8 := word p.u.bits ++ word p.v.bits

end Uv

namespace Tint

def bytes (t : Tint) : List UInt8 := [t.blue, t.green, t.red, t.alpha]

end Tint

def counted {α : Type} (bytes : α → List UInt8) (items : List α) : List UInt8 :=
  size items.length ++ items.flatMap bytes

def zeros (n : Nat) : List UInt8 := List.replicate n 0

namespace Raw

def bytes (m : Raw) : List UInt8 :=
  [1, 0, 0, 0, 0, 0, 0, 0] ++
  counted word m.materials ++
  counted word m.smoothing ++
  counted Triple.bytes m.positions ++
  counted word m.indices ++
  zeros 4 ++ zeros 4 ++
  counted Triple.bytes m.normals ++
  m.uvs.flatMap (counted Uv.bytes) ++
  zeros (4 * (maxLayers - m.uvs.length)) ++
  counted Tint.bytes m.colors ++
  zeros 4

end Raw

def preamble (name : String) : List UInt8 :=
  string name ++ [0, 1, 0, 0, 0] ++ string "SourceModels" ++ string "StructProperty" ++ zeros 8 ++
  string "DatasmithMeshSourceModel" ++ zeros 25

def file (name : String) (m : Raw) : List UInt8 :=
  let raw := m.bytes
  let body := preamble name ++ size raw.length ++ size raw.length ++ [125, 0, 0, 0, 0, 0, 0, 0] ++
    raw ++ zeros 20
  size 1 ++ size body.length ++ body

end SceneExchange.Mesh
