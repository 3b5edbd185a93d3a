import SceneExchange.Number.Binary

/-!
# Numbers with a fixed count of decimal places

The exact binary value is rounded to the places, half to even. A zero keeps its sign.
-/

namespace SceneExchange.Number

def placesText (places digits : Nat) : String :=
  let whole := toString (digits / Nat.pow 10 places)
  let fraction := toString (digits % Nat.pow 10 places)
  whole ++ "." ++ String.ofList (List.replicate (places - fraction.length) '0') ++ fraction

def fixedText (places : Nat) (x : Float) : String :=
  match decode x with
  | .nan => "nan"
  | .infinite negative => if negative then "-inf" else "inf"
  | .finite negative mantissa exponent =>
    let (n, d) := scaled 2 mantissa 1 exponent
    (if negative then "-" else "") ++ placesText places (roundHalfEven (n * Nat.pow 10 places) d)

def six (x : Float) : String := fixedText 6 x

end SceneExchange.Number
