import SceneExchange.Number.Rounding

/-!
# Double precision numbers as exact rationals

`decode` opens the bits of a double; `nearest` rounds a rational to the nearest double, a half
going to the even mantissa and a magnitude beyond the range going to infinity.
-/

namespace SceneExchange.Number

inductive Exact where
  | nan
  | infinite (negative : Bool)
  | finite (negative : Bool) (mantissa : Nat) (exponent : Int)
  deriving Repr, DecidableEq, Inhabited

def decodeBits (bits : Nat) : Exact :=
  let negative := bits / twoPow 63 % 2 == 1
  let biased : Nat := bits / twoPow 52 % twoPow 11
  let fraction : Nat := bits % twoPow 52
  if biased = twoPow 11 - 1 then
    if fraction = 0 then .infinite negative else .nan
  else if biased = 0 then .finite negative fraction (-1074)
  else .finite negative (fraction + twoPow 52) ((biased : Int) - 1075)

def decode (x : Float) : Exact := decodeBits x.toBits.toNat

def signBit (negative : Bool) : Nat := if negative then twoPow 63 else 0

def infinityBits (negative : Bool) : Nat := signBit negative + 2047 * twoPow 52

def composeBits (negative : Bool) (mantissa : Nat) (exponent : Int) : Nat :=
  if mantissa = twoPow 53 then
    if 971 ≤ exponent then infinityBits negative
    else signBit negative + (exponent + 1076).toNat * twoPow 52
  else if 971 < exponent then infinityBits negative
  else if mantissa < twoPow 52 then signBit negative + mantissa
  else signBit negative + (exponent + 1075).toNat * twoPow 52 + (mantissa - twoPow 52)

def mantissaExponent (num den : Nat) : Int :=
  let guess : Int := (num.log2 : Int) - den.log2 - 52
  let (n, d) := scaled 2 num den (-guess)
  let fitted := if twoPow 53 ≤ n / d then guess + 1 else if n / d < twoPow 52 then guess - 1 else guess
  max fitted (-1074)

def nearestBits (negative : Bool) (num den : Nat) : Nat :=
  if num = 0 then signBit negative
  else
    let exponent := mantissaExponent num den
    let (n, d) := scaled 2 num den (-exponent)
    composeBits negative (roundHalfEven n d) exponent

def nearest (negative : Bool) (num den : Nat) : Float :=
  Float.ofBits (nearestBits negative num den).toUInt64

def infinity (negative : Bool) : Float := Float.ofBits (infinityBits negative).toUInt64

def notANumber : Float := Float.ofBits 0x7FF8000000000000

def leastOutside : Nat := twoPow 1024 - twoPow 970

def ofInt? (n : Int) : Option Float :=
  if n.natAbs < leastOutside then some (nearest (n < 0) n.natAbs 1) else none

/-- `± digits * 10 ^ exponent` as the nearest double. Magnitudes that are out of range whatever
the digits are settled without building the power of ten. -/
def ofDecimal (negative : Bool) (digits : Nat) (exponent : Int) : Float :=
  if digits = 0 then nearest negative 0 1
  else
    let order : Int := (toString digits).length + exponent
    if 400 < order then infinity negative
    else if order < -400 then nearest negative 0 1
    else
      let (n, d) := scaled 10 digits 1 exponent
      nearest negative n d

def toSingle (x : Float) : Float := x.toFloat32.toFloat

def roundPlaces (x : Float) (places : Int) : Float :=
  if 323 < places then x
  else if places < -308 then 0.0 * x
  else match decode x with
    | .finite negative mantissa exponent =>
      let (n, d) := scaled 2 mantissa 1 exponent
      let (n, d) := scaled 10 n d places
      let q := roundHalfEven n d
      let (n, d) := scaled 10 q 1 (-places)
      nearest negative n d
    | _ => x

end SceneExchange.Number
