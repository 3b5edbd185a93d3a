import SceneExchange.Fault

/-!
# Four by four matrices

The scalars are any type with field operations and a test on magnitudes, so that the same
formulas run on doubles and can be studied in exact arithmetic. Sums are taken from the left.
-/

namespace SceneExchange.Geometry

class Scalar (α : Type) extends Add α, Sub α, Mul α, Div α, Neg α where
  ratio : Int → Nat → α
  outweighs : α → α → Bool
  isZero : α → Bool

namespace Scalar

variable {α : Type} [Scalar α]

def zero : α := ratio 0 1

def one : α := ratio 1 1

end Scalar

instance : Scalar Float where
  ratio n d := Float.ofInt n / Float.ofNat d
  outweighs a b := b.abs < a.abs
  isZero a := a == 0.0

structure Row (α : Type) where
  x : α
  y : α
  z : α
  w : α
  deriving Repr, DecidableEq, Inhabited

namespace Row

variable {α β : Type}

def map (f : α → β) (r : Row α) : Row β := ⟨f r.x, f r.y, f r.z, f r.w⟩

def toList (r : Row α) : List α := [r.x, r.y, r.z, r.w]

end Row

structure Matrix (α : Type) where
  r0 : Row α
  r1 : Row α
  r2 : Row α
  r3 : Row α
  deriving Repr, DecidableEq, Inhabited

namespace Matrix

variable {α : Type}

def rows (m : Matrix α) : List (Row α) := [m.r0, m.r1, m.r2, m.r3]

def toList (m : Matrix α) : List α := m.rows.flatMap Row.toList

def column0 (m : Matrix α) : Row α := ⟨m.r0.x, m.r1.x, m.r2.x, m.r3.x⟩

def column1 (m : Matrix α) : Row α := ⟨m.r0.y, m.r1.y, m.r2.y, m.r3.y⟩

def column2 (m : Matrix α) : Row α := ⟨m.r0.z, m.r1.z, m.r2.z, m.r3.z⟩

def column3 (m : Matrix α) : Row α := ⟨m.r0.w, m.r1.w, m.r2.w, m.r3.w⟩

variable [Scalar α]

open Scalar

def diagonal (a b c d : α) : Matrix α :=
  ⟨⟨a, zero, zero, zero⟩, ⟨zero, b, zero, zero⟩, ⟨zero, zero, c, zero⟩, ⟨zero, zero, zero, d⟩⟩

def identity : Matrix α := diagonal one one one one

def scale (s : α) : Matrix α := diagonal s s s one

def shift (x y z : α) : Matrix α :=
  ⟨⟨one, zero, zero, x⟩, ⟨zero, one, zero, y⟩, ⟨zero, zero, one, z⟩, ⟨zero, zero, zero, one⟩⟩

def dot (a b : Row α) : α := a.x * b.x + a.y * b.y + a.z * b.z + a.w * b.w

def rowTimes (a : Row α) (m : Matrix α) : Row α :=
  ⟨dot a m.column0, dot a m.column1, dot a m.column2, dot a m.column3⟩

def mul (a b : Matrix α) : Matrix α :=
  ⟨rowTimes a.r0 b, rowTimes a.r1 b, rowTimes a.r2 b, rowTimes a.r3 b⟩

instance : Mul (Matrix α) := ⟨mul⟩

structure Pair (α : Type) where
  left : Row α
  right : Row α
  deriving Inhabited

def Pair.map {β : Type} (f : α → β) (p : Pair α) : Pair β := ⟨p.left.map f, p.right.map f⟩

def Pair.eliminate (p pivot : Pair α) (f : α) : Pair α :=
  let line (a b : Row α) : Row α := ⟨a.x - f * b.x, a.y - f * b.y, a.z - f * b.z, a.w - f * b.w⟩
  ⟨line p.left pivot.left, line p.right pivot.right⟩

def pivotIndex (entry : Row α → α) (start : Nat) (pairs : List (Pair α)) : Nat :=
  (pairs.zipIdx.foldl (fun best (p, i) =>
    if start < i then
      match best with
      | some (j, v) => if outweighs (entry p.left) v then some (i, entry p.left) else some (j, v)
      | none => none
    else if i = start then some (i, entry p.left) else best) none).elim start (·.1)

def swapAt {β : Type} (i j : Nat) (l : List β) : List β :=
  match l[i]?, l[j]? with
  | some a, some b => (l.set i b).set j a
  | _, _ => l

def eliminateColumn (entry : Row α → α) (c : Nat) (pairs : List (Pair α)) :
    Except Fault (List (Pair α)) :=
  let p := pivotIndex entry c pairs
  match pairs[p]? with
  | none => .error .singularMatrix
  | some chosen =>
    if isZero (entry chosen.left) then .error .singularMatrix
    else
      let d := entry chosen.left
      let pivot := chosen.map (· / d)
      .ok <| ((swapAt c p pairs).set c pivot).zipIdx.map fun (q, i) =>
        if i = c then q else q.eliminate pivot (entry q.left)

def inverse (m : Matrix α) : Except Fault (Matrix α) := do
  let e : Matrix α := identity
  let pairs : List (Pair α) := [⟨m.r0, e.r0⟩, ⟨m.r1, e.r1⟩, ⟨m.r2, e.r2⟩, ⟨m.r3, e.r3⟩]
  let pairs ← eliminateColumn (·.x) 0 pairs
  let pairs ← eliminateColumn (·.y) 1 pairs
  let pairs ← eliminateColumn (·.z) 2 pairs
  let pairs ← eliminateColumn (·.w) 3 pairs
  match pairs with
  | [a, b, c, d] => .ok ⟨a.right, b.right, c.right, d.right⟩
  | _ => .error .singularMatrix

end Matrix

def sameEntries (a b : Matrix Float) : Bool := (a.toList.zip b.toList).all fun (x, y) => x == y

end SceneExchange.Geometry
