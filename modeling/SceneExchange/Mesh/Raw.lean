import SceneExchange.Geometry.Engine
import SceneExchange.Mesh.Shape
import SceneExchange.Number.Single

/-!
# Raw meshes

A mesh as the engine takes it: positions in centimetres with the second axis reversed, normals
reversed, texture coordinates counted from the top, and colors as bytes from blue to alpha.
All arithmetic is in single precision, except that of the colors.
-/

namespace SceneExchange.Mesh

open SceneExchange.Geometry Number

structure Triple where
  x : Single
  y : Single
  z : Single
  deriving Repr, DecidableEq, Inhabited

structure Uv where
  u : Single
  v : Single
  deriving Repr, DecidableEq, Inhabited

structure Tint where
  blue : UInt8
  green : UInt8
  red : UInt8
  alpha : UInt8
  deriving Repr, DecidableEq, Inhabited

structure Raw where
  materials : List UInt32
  smoothing : List UInt32
  positions : List Triple
  indices : List UInt32
  normals : List Triple
  uvs : List (List Uv)
  colors : List Tint
  deriving Repr, DecidableEq, Inhabited

def maxLayers : Nat := 8

class Stored (α : Type) extends Scalar α where
  store : α → Single
  load : Single → α
  rounded : α → α

instance : Stored Float where
  store := .ofFloat
  load := Single.toFloat
  rounded := toSingle

section Storing

open Stored

variable {α : Type}

def toTriples : List α → List (α × α × α)
  | x :: y :: z :: rest => (x, y, z) :: toTriples rest
  | _ => []

def toPairs : List α → List (α × α)
  | x :: y :: rest => (x, y) :: toPairs rest
  | _ => []

variable [Stored α]

def transformPoint (m : Matrix α) (p : α × α × α) : Triple :=
  let (x, y, z) := p
  let row (r : Row α) : Single := store (r.x * x + r.y * y + r.z * z + r.w)
  ⟨row m.r0, row m.r1, row m.r2⟩

def writtenPoints (coordinates : List α) : List Triple :=
  (toTriples (coordinates.map rounded)).map (transformPoint engineAxes)

def flippedUv (p : α × α) : Uv := ⟨store p.1, store (Scalar.one - p.2)⟩

def writtenLayer (coordinates : List α) : List Uv := (toPairs (coordinates.map rounded)).map flippedUv

end Storing

def toQuads : List Float → List (Float × Float × Float × Float)
  | x :: y :: z :: w :: rest => (x, y, z, w) :: toQuads rest
  | _ => []

def normalTolerance : Float := toSingle 0.008

def reversedNormal (n : Float × Float × Float) : Triple :=
  let x := -n.1
  let y := -n.2.1
  let z := -n.2.2
  let squares := toSingle (toSingle (toSingle (x * x) + toSingle (y * y)) + toSingle (z * z))
  let drift := toSingle (toSingle squares.sqrt - 1.0)
  if normalTolerance < drift.abs then ⟨.ofFloat 0.0, .ofFloat 0.0, .ofFloat 1.0⟩
  else ⟨.ofFloat x, .ofFloat y, .ofFloat z⟩

def toByte (x : Float) : UInt8 :=
  match decode x with
  | .finite negative m e =>
    let n : Nat := wholePart m e
    if twoPow 31 ≤ n then 0
    else if negative then (256 - n % 256).toUInt8 else n.toUInt8
  | _ => 0

def toTint (c : Float × Float × Float × Float) : Tint :=
  let (r, g, b, a) := c
  ⟨toByte (b * 255.0), toByte (g * 255.0), toByte (r * 255.0), toByte (a * 255.0)⟩

def activeLayer (layers : List UvLayer) : Nat :=
  layers.zipIdx.foldl (fun found (l, i) => if l.active then i else found) 0

def orderedLayers (layers : List UvLayer) : List UvLayer :=
  let active := activeLayer layers
  (List.range layers.length).map fun i =>
    let j := if i == 0 then active else if i == active then 0 else i
    layers[j]?.getD default

def fits (actual expected : Nat) : Except Fault Unit :=
  if actual = expected then .ok ()
  else .error (.wrongKind "Couldn't access the data: wrong length of array")

namespace Raw

def ofShape (g : Shape) : Except Fault Raw := do
  let layers := g.usableLayers.take maxLayers
  let positions := writtenPoints g.coordinates
  fits g.coordinates.length (3 * positions.length)
  fits g.corners.length g.loops
  fits g.slots.length g.triangles
  fits g.normals.length (3 * g.loops)
  let uvs ← (orderedLayers layers).mapM fun l => do
    let uvs := writtenLayer l.coordinates
    fits l.coordinates.length (2 * uvs.length)
    pure uvs
  let colors ← match g.colors with
    | [] => pure []
    | first :: _ => do
      fits first.length (4 * g.loops)
      pure ((toQuads first).map toTint)
  pure {
    materials := g.slots.map Nat.toUInt32
    smoothing := List.replicate g.triangles 0
    positions := positions
    indices := g.corners.map Nat.toUInt32
    normals := (toTriples (g.normals.map toSingle)).map reversedNormal
    uvs := uvs
    colors := colors }

end Raw

end SceneExchange.Mesh
