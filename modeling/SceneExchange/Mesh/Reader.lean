import SceneExchange.Mesh.Writer

/-!
# Reading mesh files

Reading goes through the file once and keeps what it has read when it meets a fault. A list that
the file cuts short is read as far as it goes.
-/

namespace SceneExchange.Mesh

open Bytes Number

structure Loaded where
  materials : Option (List UInt32) := none
  smoothing : Option (List UInt32) := none
  positions : Option (List Single) := none
  indices : Option (List UInt32) := none
  normals : Option (List Single) := none
  uvs : Option (List (List UInt64)) := none
  colors : Option (List Tint) := none
  deriving Inhabited

structure Cursor where
  rest : List UInt8
  consumed : Nat := 0
  mesh : Loaded := {}
  deriving Inhabited

abbrev Reading := ExceptT Fault (StateM Cursor)

namespace Reading

def take (n : Nat) : Reading (List UInt8) := do
  let c ← get
  let bytes := c.rest.take n
  set { c with rest := c.rest.drop n, consumed := c.consumed + bytes.length }
  pure bytes

def expect (condition : Bool) : Reading Unit :=
  if condition then pure () else throw (.violated "")

def expectBytes (bytes : List UInt8) : Reading Unit := do
  expect ((← take bytes.length) == bytes)

def exactly (n : Nat) : Reading (List UInt8) := do
  let bytes ← take n
  if bytes.length = n then pure bytes
  else throw (.packing ("unpack requires a buffer of " ++ toString n ++ " bytes"))

def number : Reading Nat := do pure (ofLittle (← exactly 4))

def twoNumbers : Reading (Nat × Nat) := do
  let bytes ← exactly 8
  pure (ofLittle (bytes.take 4), ofLittle (bytes.drop 4))

def text : Reading (List UInt8) := do take (← number)

def expectText (s : String) : Reading Unit := do
  expect ((← text) == ofText s ++ [0])

end Reading

def toWords : List UInt8 → List UInt32
  | a :: b :: c :: d :: rest => (ofLittle [a, b, c, d]).toUInt32 :: toWords rest
  | _ => []

def wordsOf (bytes : List UInt8) : Except Fault (List UInt32) :=
  if bytes.length % 4 = 0 then .ok (toWords bytes)
  else .error (.badValue "buffer size must be a multiple of element size")

def unevenFault (count width : Nat) : Fault :=
  .badValue ("cannot reshape array of size " ++ toString count ++ " into shape (" ++
    toString width ++ ")")

def negateSecond : List UInt32 → Option (List UInt64)
  | [] => some []
  | u :: v :: rest =>
    (negateSecond rest).map fun more =>
      Single.widen ⟨u⟩ :: Single.widenNegated ⟨v⟩ :: more
  | _ => none

def tintsOf : List UInt8 → Option (List Tint)
  | [] => some []
  | b :: g :: r :: a :: rest => (tintsOf rest).map (⟨b, g, r, a⟩ :: ·)
  | _ => none

namespace Reading

def keep (f : Loaded → Loaded) : Reading Unit :=
  modify fun c => { c with mesh := f c.mesh }

def words (n : Nat) : Reading (List UInt32) := do
  match wordsOf (← take (4 * n)) with
  | .ok ws => pure ws
  | .error f => throw f

def uvLayer : Reading (List UInt64) := do
  let ws ← words (2 * (← number))
  match negateSecond ws with
  | some uvs => pure uvs
  | none => throw (unevenFault ws.length 2)

def layers : Nat → Reading (List (List UInt64))
  | 0 => pure []
  | n + 1 => do
    let first ← uvLayer
    pure (first :: (← layers n))

def rawMesh : Reading Unit := do
  let triangles ← number
  let materials ← words triangles
  keep fun m => { m with materials := some materials }
  let groups ← number
  expect (triangles == groups)
  let smoothing ← words groups
  keep fun m => { m with smoothing := some smoothing }
  let vertices ← number
  let positions ← words (3 * vertices)
  keep fun m => { m with positions := some (positions.map Single.mk) }
  let wedges ← number
  let indices ← words wedges
  keep fun m => { m with indices := some indices }
  expect ((← number) == 0)
  expect ((← number) == 0)
  expect ((← number) == wedges)
  let normals ← words (3 * wedges)
  keep fun m => { m with normals := some (normals.map Single.mk) }
  let uvs ← layers maxLayers
  keep fun m => { m with uvs := some uvs }
  let bytes ← take (4 * (← number))
  match tintsOf bytes with
  | some colors => keep fun m => { m with colors := some colors }
  | none => throw (unevenFault bytes.length 4)
  expect ((← number) == 0)

def meshFile : Reading Unit := do
  let (_, fileSize) ← twoNumbers
  let fileStart := (← get).consumed
  let _ ← text
  expectBytes [0, 1, 0, 0, 0]
  expectText "SourceModels"
  expectText "StructProperty"
  expectBytes (zeros 8)
  expectText "DatasmithMeshSourceModel"
  expectBytes (zeros 25)
  let (meshSize, again) ← twoNumbers
  expect (meshSize == again)
  let _ ← twoNumbers
  let meshStart := (← get).consumed
  expectBytes [1, 0, 0, 0]
  expectBytes [0, 0, 0, 0]
  rawMesh
  expect (meshSize == (← get).consumed - meshStart)
  let _ ← take 20
  expect (fileSize == (← get).consumed - fileStart)

end Reading

def read (bytes : List UInt8) : Except Fault Unit × Loaded :=
  let (r, c) := Reading.meshFile.run { rest := bytes }
  (r, c.mesh)

end SceneExchange.Mesh
