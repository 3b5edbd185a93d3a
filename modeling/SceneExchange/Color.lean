import SceneExchange.Fault
import SceneExchange.Number.Numeral

/-!
# Colors as text

A color is written `(R=…,G=…,B=…,A=…)`. Whatever follows the closing parenthesis is ignored.
-/

namespace SceneExchange

structure Color where
  red : Float
  green : Float
  blue : Float
  alpha : Float
  deriving Inhabited

namespace Color

def component (mark : String) (stop : Char) (cs : List Char) : Except Fault (Float × List Char) :=
  if cs.take 3 ≠ mark.toList then .error (.violated "")
  else
    let body := cs.drop 3
    if !body.contains stop then .error .substringMissing
    else
      let numeral := String.ofList (body.takeWhile (· ≠ stop))
      match Number.readReal? numeral with
      | some x => .ok (x, body.dropWhile (· ≠ stop))
      | none => .error (.malformedReal numeral)

def read (text : String) : Except Fault Color := do
  let (red, rest) ← component "(R=" ',' text.toList
  let (green, rest) ← component ",G=" ',' rest
  let (blue, rest) ← component ",B=" ',' rest
  let (alpha, _) ← component ",A=" ')' rest
  pure ⟨red, green, blue, alpha⟩

def toList (c : Color) : List Float := [c.red, c.green, c.blue, c.alpha]

end Color

end SceneExchange
