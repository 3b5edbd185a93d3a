import SceneExchange.Fault
import SceneExchange.Number.Fixed

/-!
# Whole and real numbers side by side

Settings are whole or real numbers. Whole numbers stay exact until they meet a real one, and then
become the nearest double.
-/

namespace SceneExchange.Number

inductive Mixed where
  | whole (n : Int)
  | real (x : Float)
  deriving Inhabited

namespace Mixed

def ofDatum : Datum → Except Fault Mixed
  | .int n => .ok (.whole n)
  | .flag b => .ok (.whole (if b then 1 else 0))
  | .real x => .ok (.real x)
  | d => .error (.wrongKind ("must be real number, not " ++ d.kindName))

def toFloat : Mixed → Except Fault Float
  | .real x => .ok x
  | .whole n =>
    match ofInt? n with
    | some x => .ok x
    | none => .error .integerTooLarge

def combine (onWhole : Int → Int → Int) (onReal : Float → Float → Float) :
    Mixed → Mixed → Except Fault Mixed
  | .whole a, .whole b => .ok (.whole (onWhole a b))
  | a, b => do pure (.real (onReal (← a.toFloat) (← b.toFloat)))

def mul : Mixed → Mixed → Except Fault Mixed := combine (· * ·) (· * ·)

def sub : Mixed → Mixed → Except Fault Mixed := combine (· - ·) (· - ·)

def dividedBy (a : Mixed) (b : Float) : Except Fault Float := do pure ((← a.toFloat) / b)

def sqrt (a : Mixed) : Except Fault Float := do
  let x ← a.toFloat
  if x < 0.0 then throw (.badValue "math domain error") else pure x.sqrt

def six (a : Mixed) : Except Fault String := do pure (Number.six (← a.toFloat))

end Mixed

end SceneExchange.Number
