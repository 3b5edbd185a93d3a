import SceneExchange.Number.Binary

/-!
# The fewest digits that read back

For 1, 2, … digits the two neighbours of the value on that decimal grid are tested against the
interval of reals that round to the value; the first grid with a hit gives the digits.
-/

namespace SceneExchange.Number

structure Decimal where
  digits : Nat
  exponent : Int
  deriving Repr, DecidableEq, Inhabited

structure Interval where
  low : Nat
  value : Nat
  high : Nat
  den : Nat
  closed : Bool

/-- All rationals that round to `mantissa * 2 ^ exponent`. Below a power of two the gap is half
as wide. -/
def roundingInterval (mantissa : Nat) (exponent : Int) : Interval :=
  let (unit, den) := scaled 2 1 4 exponent
  let below := if mantissa = twoPow 52 ∧ -1074 < exponent then 1 else 2
  { low := (4 * mantissa - below) * unit
    value := 4 * mantissa * unit
    high := (4 * mantissa + 2) * unit
    den := den
    closed := mantissa % 2 = 0 }

def Interval.holds (i : Interval) (c : Decimal) : Bool :=
  let (n, d) := scaled 10 c.digits 1 c.exponent
  let a := n * i.den
  if i.closed then i.low * d ≤ a && a ≤ i.high * d
  else i.low * d < a && a < i.high * d

def decimalOrder (num den : Nat) : Int :=
  let guess : Int := ((num.log2 : Int) - den.log2) * 30103 / 100000
  let above (k : Int) : Bool :=
    let (n, d) := scaled 10 1 1 k
    n * den ≤ num * d
  if above (guess + 2) then guess + 3
  else if above (guess + 1) then guess + 2
  else if above guess then guess + 1
  else if above (guess - 1) then guess
  else guess - 1

def Interval.onGrid? (i : Interval) (order : Int) (count : Nat) : Option Decimal :=
  let exponent := order - count
  let (n, d) := scaled 10 i.value i.den (-exponent)
  let below : Decimal := ⟨n / d, exponent⟩
  let above : Decimal := ⟨n / d + 1, exponent⟩
  match i.holds below, i.holds above with
  | true, true =>
    let r := n % d
    if 2 * r < d then some below
    else if d < 2 * r then some above
    else if (n / d) % 2 = 0 then some below
    else some above
  | true, false => some below
  | false, true => some above
  | false, false => none

def Interval.shortest (i : Interval) : Decimal :=
  let order := decimalOrder i.value i.den
  ((List.range 17).findSome? fun k => i.onGrid? order (k + 1)).getD ⟨0, 0⟩

structure ShortestForm where
  least : Int
  greatest : Int

def defaultForm : ShortestForm := ⟨-3, 16⟩

def zeros (n : Nat) : String := String.ofList (List.replicate n '0')

def trimZeros (digits : String) : String :=
  String.ofList (digits.toList.reverse.dropWhile (· == '0')).reverse

def positionalText (digits : String) (order : Int) : String :=
  let n : Int := digits.length
  if order ≤ 0 then "0." ++ zeros (-order).toNat ++ digits
  else if n ≤ order then digits ++ zeros (order - n).toNat ++ ".0"
  else String.ofList (digits.toList.take order.toNat) ++ "." ++
    String.ofList (digits.toList.drop order.toNat)

def scientificText (digits : String) (order : Int) : String :=
  let lead := String.ofList (digits.toList.take 1)
  let rest := String.ofList (digits.toList.drop 1)
  let e := order - 1
  let magnitude := toString e.natAbs
  lead ++ (if rest.isEmpty then "" else "." ++ rest) ++ "e" ++ (if e < 0 then "-" else "+") ++
    zeros (2 - magnitude.length) ++ magnitude

def Decimal.text (form : ShortestForm) (c : Decimal) : String :=
  let all := toString c.digits
  let order : Int := all.length + c.exponent
  let digits := trimZeros all
  if form.least ≤ order ∧ order ≤ form.greatest then positionalText digits order
  else scientificText digits order

def shortest (x : Float) : String :=
  match decode x with
  | .nan => "nan"
  | .infinite negative => if negative then "-inf" else "inf"
  | .finite negative mantissa exponent =>
    (if negative then "-" else "") ++
      (if mantissa = 0 then "0.0"
       else (roundingInterval mantissa exponent).shortest.text defaultForm)

end SceneExchange.Number
