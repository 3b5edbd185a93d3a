/-!
# Bytes of numbers

Numbers in files are little-endian; those inside digests are big-endian.
-/

namespace SceneExchange.Bytes

def little : Nat → Nat → List UInt8
  | 0, _ => []
  | count + 1, n => n.toUInt8 :: little count (n / 256)

def ofLittle : List UInt8 → Nat
  | [] => 0
  | b :: rest => b.toNat + 256 * ofLittle rest

def big (count n : Nat) : List UInt8 := (little count n).reverse

def word (n : UInt32) : List UInt8 := little 4 n.toNat

def size (n : Nat) : List UInt8 := little 4 n

@[simp] theorem little_length (count n : Nat) : (little count n).length = count := by
  induction count generalizing n with
  | zero => rfl
  | succ count ih => simp [little, ih]

theorem ofLittle_little (count n : Nat) : ofLittle (little count n) = n % Nat.pow 256 count := by
  induction count generalizing n with
  | zero => exact (Nat.mod_one n).symm
  | succ count ih =>
    have h : n.toUInt8.toNat = n % 256 := by simp [Nat.toUInt8]
    rw [little, ofLittle, ih, h]
    exact (Nat.mod_mul.trans (by rfl)).symm.trans (congrArg (n % ·) (Nat.mul_comm _ _))

def ofText (s : String) : List UInt8 := s.toUTF8.data.toList

def hexOfByte (b : UInt8) : List Char :=
  [Nat.digitChar (b.toNat / 16), Nat.digitChar (b.toNat % 16)]

def hex (bytes : List UInt8) : String := String.ofList (bytes.flatMap hexOfByte)

end SceneExchange.Bytes
