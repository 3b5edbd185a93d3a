import SceneExchange.Number.Binary

/-!
# Single precision numbers by their bits

`widen` gives the double of the same value; a number that is none keeps its sign and payload and
becomes quiet.
-/

namespace SceneExchange.Number

structure Single where
  bits : UInt32
  deriving Repr, DecidableEq, Inhabited

namespace Single

def ofFloat (x : Float) : Single := ⟨x.toFloat32.toBits⟩

def sign (s : Single) : Nat := s.bits.toNat / twoPow 31

def exponent (s : Single) : Nat := s.bits.toNat / twoPow 23 % twoPow 8

def fraction (s : Single) : Nat := s.bits.toNat % twoPow 23

def isNaN (s : Single) : Bool := s.exponent == 255 && s.fraction != 0

def widenBits (s : Single) : Nat :=
  let sign := s.sign * twoPow 63
  if s.exponent = 255 then
    if s.fraction = 0 then sign + 2047 * twoPow 52
    else sign + 2047 * twoPow 52 + twoPow 51 + s.fraction % twoPow 22 * twoPow 29
  else if s.exponent = 0 then
    if s.fraction = 0 then sign
    else
      let top := s.fraction.log2
      sign + (top + 874) * twoPow 52 + (s.fraction - twoPow top) * twoPow (52 - top)
  else sign + (s.exponent + 896) * twoPow 52 + s.fraction * twoPow 29

def widen (s : Single) : UInt64 := (widenBits s).toUInt64

def toFloat (s : Single) : Float := Float.ofBits s.widen

def widenNegated (s : Single) : UInt64 :=
  if s.isNaN then s.widen else s.widen ^^^ 0x8000000000000000

def negate (s : Single) : Single :=
  if s.isNaN then ⟨s.bits ||| 0x400000⟩ else ⟨s.bits ^^^ 0x80000000⟩

end Single

end SceneExchange.Number
