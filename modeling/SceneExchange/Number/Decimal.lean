import SceneExchange.Number.Numeral

/-!
# Exact decimal numbers

A decimal number keeps the digits that it was written with, zeros at its end among them.
-/

namespace SceneExchange.Number

structure ExactDecimal where
  negative : Bool
  digits : Nat
  exponent : Int
  deriving Repr, DecidableEq

namespace ExactDecimal

def read? (text : String) : Option ExactDecimal := do
  let (negative, cs) := takeSign text.toList
  let whole := cs.takeWhile isDigit
  let rest := cs.dropWhile isDigit
  let (fraction, rest) := match rest with
    | '.' :: more => (more.takeWhile isDigit, more.dropWhile isDigit)
    | _ => ([], rest)
  if whole.isEmpty && fraction.isEmpty then none
  let exponent ← match rest with
    | [] => some 0
    | e :: more => if lowerAscii e == 'e' then readExponent? more else none
  pure ⟨negative, digitsValue (whole ++ fraction), exponent - fraction.length⟩

/-- The text of a decimal number. It has an exponent if the digits do not reach down to the units,
or if more than five zeros would stand after the point. -/
def text (d : ExactDecimal) : String :=
  let digits := toString d.digits
  let order : Int := d.exponent + digits.length
  let plain := d.exponent ≤ 0 && -6 < order
  let place : Int := if plain then order else 1
  let body :=
    if place ≤ 0 then "0." ++ String.ofList (List.replicate place.natAbs '0') ++ digits
    else if digits.length ≤ place.toNat then
      digits ++ String.ofList (List.replicate (place.toNat - digits.length) '0')
    else String.ofList (digits.toList.take place.toNat) ++ "." ++
      String.ofList (digits.toList.drop place.toNat)
  let power := order - place
  let tail := if power = 0 then "" else
    "E" ++ (if 0 < power then "+" else "") ++ toString power
  (if d.negative then "-" else "") ++ body ++ tail

end ExactDecimal

end SceneExchange.Number
