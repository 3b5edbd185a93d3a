import SceneExchange.Number.Binary

/-!
# Triangle meshes

A mesh as the editor holds it: coordinates, and per triangle corner the vertex, the normal, the
texture coordinates of each layer and the colors of each layer.
-/

namespace SceneExchange.Mesh

structure UvLayer where
  name : String
  active : Bool
  coordinates : List Float
  deriving Inhabited

structure Shape where
  name : String
  library : Option Nat
  materials : List (Option Nat)
  coordinates : List Float
  corners : List Nat
  faceMaterials : Option (List Nat)
  cornerNormals : Option (List Float)
  layers : List UvLayer
  colors : List (List Float)
  faces : Option Nat
  deriving Inhabited

namespace Shape

def triangles (g : Shape) : Nat := g.corners.length / 3

def loops (g : Shape) : Nat := 3 * g.triangles

def polygons (g : Shape) : Nat := g.faces.getD g.triangles

def slots (g : Shape) : List Nat := g.faceMaterials.getD (List.replicate g.triangles 0)

def normals (g : Shape) : List Float :=
  g.cornerNormals.getD (List.replicate g.loops [0.0, 0.0, 1.0]).flatten

def usableLayers (g : Shape) : List UvLayer :=
  if g.layers.isEmpty then [⟨"", true, List.replicate (2 * g.loops) 0.0⟩] else g.layers

end Shape

end SceneExchange.Mesh
