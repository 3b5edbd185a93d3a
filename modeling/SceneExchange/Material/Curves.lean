import SceneExchange.Material.Session

/-!
# The curve texture

Ramps and curves are sampled into the rows of one square texture, the first curve into the last
row. A row below the first one counts from the last row again.
-/

namespace SceneExchange.Material

open SceneExchange.Graph Compile

def curveRow (number : Nat) : Except Fault Nat :=
  let row : Int := curvesSize - number - 1
  if 0 ≤ row then .ok row.toNat
  else if -(curvesSize : Int) ≤ row then .ok (row + curvesSize).toNat
  else .error (.axisOutOfBounds row curvesSize)

def samplePosition (column : Nat) : Float := Float.ofNat column / Float.ofNat curvesSize

def CurveRow.sample (row : CurveRow) (column : Nat) : List Float :=
  let p := samplePosition column
  match row with
  | .ramp r =>
    match r.evaluate p with
    | [x] => [x, x, x, x]
    | xs => xs
  | .curves cs => (cs.take 4).map fun c => c.evaluate p

/-- What keeps a curve from filling its row: a color that is not one of four components, nor a single number, or
too few curves. -/
def CurveRow.misfit? : CurveRow → Option Fault
  | .ramp r => (List.range curvesSize).findSome? fun column =>
    let n := (r.evaluate (samplePosition column)).length
    if n == 4 || n == 1 then none
    else some (.badValue ("could not broadcast input array from shape (" ++ toString n ++ ",) into shape (4,)"))
  | .curves cs => if cs.length < 4 then some (.sequenceOutOfRange "list") else none

def curveSample (rows : Table Nat CurveRow) (number column : Nat) : List Float :=
  match curveRow number with
  | .ok row =>
    match rows.get? row with
    | some r => r.sample column
    | none => [0.0, 0.0, 0.0, 0.0]
  | .error _ => []

namespace Compile

def curveCount : Compile Nat := do pure (← get).curveCount

def nextCurve : Compile (Nat × Nat) := do
  let number ← curveCount
  modify fun s => { s with curveCount := number + 1 }
  write .info ("writing curve:" ++ toString number)
  pure (number, ← lift (curveRow number))

def addCurve (row : CurveRow) : Compile Int := do
  let (number, place) ← nextCurve
  match row.misfit? with
  | some fault => fail fault
  | none =>
    modify fun s => { s with curveRows := s.curveRows.insert place row }
    pure number

def addBlankCurve : Compile Int := do pure (← nextCurve).1

end Compile

end SceneExchange.Material
