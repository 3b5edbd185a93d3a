import SceneExchange.Geometry.Matrix

/-!
# Location, rotation and scale

An affine matrix is split into a location, a unit quaternion and a scale per axis; a reflection
shows as three negative scales.
-/

namespace SceneExchange.Geometry

structure Vec3 where
  x : Float
  y : Float
  z : Float
  deriving Repr, Inhabited

structure Quaternion where
  w : Float
  x : Float
  y : Float
  z : Float
  deriving Repr, Inhabited

structure Placement where
  location : Vec3
  rotation : Quaternion
  scale : Vec3
  deriving Repr, Inhabited

structure Rotation where
  a : Vec3
  b : Vec3
  c : Vec3
  deriving Repr, Inhabited

namespace Quaternion

def identity : Quaternion := ⟨1.0, 0.0, 0.0, 0.0⟩

def toRotation (q : Quaternion) : Rotation :=
  let ⟨w, x, y, z⟩ := q
  { a := ⟨1 - 2 * (y * y + z * z), 2 * (x * y - z * w), 2 * (x * z + y * w)⟩
    b := ⟨2 * (x * y + z * w), 1 - 2 * (x * x + z * z), 2 * (y * z - x * w)⟩
    c := ⟨2 * (x * z - y * w), 2 * (y * z + x * w), 1 - 2 * (x * x + y * y)⟩ }

def atLeast (a b : Float) : Float := if b > a then b else a

def ofRotation (m : Rotation) : Quaternion :=
  if m.c.z < 0.0 then
    if m.a.x > m.b.y then
      let s := 2.0 * (atLeast 0.0 (1.0 + m.a.x - m.b.y - m.c.z)).sqrt
      let s := if m.c.y < m.b.z then -s else s
      if s == 0.0 then identity
      else ⟨(m.c.y - m.b.z) / s, 0.25 * s, (m.b.x + m.a.y) / s, (m.a.z + m.c.x) / s⟩
    else
      let s := 2.0 * (atLeast 0.0 (1.0 - m.a.x + m.b.y - m.c.z)).sqrt
      let s := if m.a.z < m.c.x then -s else s
      if s == 0.0 then identity
      else ⟨(m.a.z - m.c.x) / s, (m.b.x + m.a.y) / s, 0.25 * s, (m.c.y + m.b.z) / s⟩
  else if m.a.x < -m.b.y then
    let s := 2.0 * (atLeast 0.0 (1.0 - m.a.x - m.b.y + m.c.z)).sqrt
    let s := if m.b.x < m.a.y then -s else s
    if s == 0.0 then identity
    else ⟨(m.b.x - m.a.y) / s, (m.a.z + m.c.x) / s, (m.c.y + m.b.z) / s, 0.25 * s⟩
  else
    let s := 2.0 * (atLeast 0.0 (1.0 + m.a.x + m.b.y + m.c.z)).sqrt
    if s == 0.0 then identity
    else ⟨0.25 * s, (m.c.y - m.b.z) / s, (m.a.z - m.c.x) / s, (m.b.x - m.a.y) / s⟩

def toEuler (q : Quaternion) : Vec3 :=
  let m := q.toRotation
  let cy := (m.a.x * m.a.x + m.b.x * m.b.x).sqrt
  let (e1, e2) : Vec3 × Vec3 :=
    if cy > 16 * 1.1920928955078125e-07 then
      (⟨Float.atan2 m.c.y m.c.z, Float.atan2 (-m.c.x) cy, Float.atan2 m.b.x m.a.x⟩,
       ⟨Float.atan2 (-m.c.y) (-m.c.z), Float.atan2 (-m.c.x) (-cy), Float.atan2 (-m.b.x) (-m.a.x)⟩)
    else
      let e : Vec3 := ⟨Float.atan2 (-m.b.z) m.b.y, Float.atan2 (-m.c.x) cy, 0.0⟩
      (e, e)
  let size (e : Vec3) : Float := e.x.abs + e.y.abs + e.z.abs
  if size e1 > size e2 then e2 else e1

end Quaternion

def splitColumn (x y z : Float) : Float × Vec3 :=
  let length := (x * x + y * y + z * z).sqrt
  (length, if length > 1e-35 then ⟨x / length, y / length, z / length⟩ else ⟨0.0, 0.0, 0.0⟩)

def Rotation.negate (m : Rotation) : Rotation :=
  let neg (v : Vec3) : Vec3 := ⟨-v.x, -v.y, -v.z⟩
  ⟨neg m.a, neg m.b, neg m.c⟩

def Rotation.determinant (m : Rotation) : Float :=
  m.a.x * (m.b.y * m.c.z - m.b.z * m.c.y)
    - m.a.y * (m.b.x * m.c.z - m.b.z * m.c.x)
    + m.a.z * (m.b.x * m.c.y - m.b.y * m.c.x)

def Matrix.decompose (m : Matrix Float) : Placement :=
  let (sx, u) := splitColumn m.r0.x m.r1.x m.r2.x
  let (sy, v) := splitColumn m.r0.y m.r1.y m.r2.y
  let (sz, w) := splitColumn m.r0.z m.r1.z m.r2.z
  let rotation : Rotation := ⟨⟨u.x, v.x, w.x⟩, ⟨u.y, v.y, w.y⟩, ⟨u.z, v.z, w.z⟩⟩
  let reflected := rotation.determinant < 0.0
  { location := ⟨m.r0.w, m.r1.w, m.r2.w⟩
    rotation := Quaternion.ofRotation (if reflected then rotation.negate else rotation)
    scale := if reflected then ⟨-sx, -sy, -sz⟩ else ⟨sx, sy, sz⟩ }

end SceneExchange.Geometry
