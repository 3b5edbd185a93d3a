import SceneExchange.Material.Handler.Basic

/-!
# Texture coordinates

Coordinates have their vertical axis flipped where they are read and flipped back where a texture
is sampled.
-/

namespace SceneExchange.Material

open SceneExchange.Graph Compile

def layerCoordinates (index u v : Datum) : Compile Operand := do
  let uv ← emit ⟨"TextureCoordinate", [("Index", index), ("UTiling", u), ("VTiling", v)], []⟩
  let flipped ← emit (.call Function.flipY [directInput "0" uv 0])
  let zero ← emitReal 0.0
  emitRef (.plain "AppendVector" [directInput "0" flipped 0, directInput "1" zero 0])

def firstLayer : Compile Operand := layerCoordinates (.int 0) (.real 1.0) (.real 1.0)

def generated : Compile Operand := emitRef (.call Function.generatedCoordinates [])

def baseAxes : List String := ["X", "Y", "Z"]

def axisOutputs (axes : List Datum) : List (String × Int) :=
  axes.zipIdx.filterMap fun (axis, i) =>
    match axis with
    | .text s => (baseAxes.findIdx? (· == s)).map fun j => (toString i, (j : Int))
    | _ => none

def exchangeAxes (axes : List Datum) (o : Operand) : Compile Operand := do
  let broken ← emit (.call Function.breakFloat3 (← optionalInput "0" o))
  emitRef (.call Function.makeFloat3
    ((axisOutputs axes).map fun (slot, output) => directInput slot broken output))

def isBaseAxes (axes : List Datum) : Bool :=
  axes.length == 3 && (axes.zip baseAxes).all fun (d, s) => isText d s

def sameReals (a b : List Float) : Bool :=
  a.length == b.length && (a.zip b).all fun (x, y) => x == y

def mappedAxes (m : TextureMapping) : List Datum := [m.axisX, m.axisY, m.axisZ]

def isStill (m : TextureMapping) : Bool :=
  sameReals m.location [0.0, 0.0, 0.0] && sameReals m.rotation [0.0, 0.0, 0.0] &&
    sameReals m.scale [1.0, 1.0, 1.0]

def turnCoordinates (axes : List Datum) (o : Operand) (generate : Compile Operand) :
    Compile Operand := do
  if isBaseAxes axes then pure o else exchangeAxes axes (← presentOr o generate)

def placeCoordinates (mapping : TextureMapping) (o : Operand) : Compile Operand := do
  let path ← choose Function.mappings mapping.vectorType
  let vector ← optionalInput "0" o
  let location ← emitVector (mapping.location.map .real)
  let rotation ← emitVector (mapping.rotation.map .real)
  let scale ← emitVector (mapping.scale.map .real)
  emitRef (.call path (vector ++
    [directInput "1" location 0, directInput "2" rotation 0, directInput "3" scale 0]))

/-- Coordinates that a texture node reads: the linked ones, mapped as the node says. Nothing is
emitted for a neutral mapping of coordinates that are not linked, unless `always` is set. -/
def mappedCoordinates (visit : Visit) (field : SocketRef) (generate : Compile Operand) (always : Bool) :
    Compile Operand := do
  let forest ← read
  let mapping := (forest.node ⟨field.tree, field.node⟩).mapping
  let linked ← if forest.isLinked field then visit field .normal else pure .none
  let given ← if linked == .none && always then generate else pure linked
  let turned ← turnCoordinates (mappedAxes mapping) given generate
  if isStill mapping then pure turned else do placeCoordinates mapping (← presentOr turned generate)

end SceneExchange.Material
