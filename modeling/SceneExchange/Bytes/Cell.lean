import SceneExchange.Bytes.Layout

/-!
# Cells of numeric arrays

An array is written as the number of its rows and the bytes of its cells.
-/

namespace SceneExchange.Bytes

structure Cell where
  name : String
  field : Field
  deriving Repr, Inhabited

namespace Cell

def all : List Cell := [
  ⟨"uint8", ⟨'B', 1⟩⟩, ⟨"uint16", ⟨'H', 2⟩⟩, ⟨"uint32", ⟨'I', 4⟩⟩, ⟨"uint64", ⟨'Q', 8⟩⟩,
  ⟨"int8", ⟨'b', 1⟩⟩, ⟨"int16", ⟨'h', 2⟩⟩, ⟨"int32", ⟨'i', 4⟩⟩, ⟨"int64", ⟨'q', 8⟩⟩,
  ⟨"float32", ⟨'f', 4⟩⟩, ⟨"float64", ⟨'d', 8⟩⟩]

def ofName? (name : String) : Option Cell := all.find? (·.name == name)

def truncate (width : Nat) (x : Float) : Nat :=
  match Number.decode x with
  | .finite negative m e =>
    let n : Nat := Number.wholePart m e
    if Number.twoPow 63 ≤ n then 0
    else ((if negative then -(n : Int) else n) % (Number.twoPow (8 * width) : Nat)).toNat
  | _ => 0

def encode (c : Cell) (d : Datum) : Except Fault (List UInt8) :=
  if c.field.isWhole then
    match d with
    | .real x => .ok (little c.field.width (truncate c.field.width x))
    | d => c.field.pack d
  else
    match d with
    | .real x =>
      if c.field.width == 8 then .ok (little 8 x.toBits.toNat)
      else .ok (word (Number.Single.ofFloat x).bits)
    | d => c.field.pack d

end Cell

def array (c : Cell) (rows : Nat) (cells : List Datum) : Except Fault (List UInt8) := do
  pure (size rows ++ (← cells.mapM c.encode).flatten)

end SceneExchange.Bytes
