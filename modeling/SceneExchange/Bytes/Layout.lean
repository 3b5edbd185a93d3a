import SceneExchange.Bytes.Word
import SceneExchange.Fault
import SceneExchange.Number.Single

/-!
# Packed records

A layout lists the fields of a record by letters: `b h i l q` for signed and `B H I L Q` for
unsigned whole numbers of one, two, four, four and eight bytes, `f` and `d` for real numbers, `?`
for truth values and `x` for a byte that holds nothing. A count in front repeats a field. Fields
follow each other without gaps, lowest byte first.
-/

namespace SceneExchange.Bytes

structure Field where
  code : Char
  width : Nat
  deriving Repr, DecidableEq, Inhabited

namespace Field

def width? (code : Char) : Option Nat :=
  if code ∈ ['b', 'B', '?', 'x'] then some 1
  else if code ∈ ['h', 'H'] then some 2
  else if code ∈ ['i', 'I', 'l', 'L', 'f'] then some 4
  else if code ∈ ['q', 'Q', 'd'] then some 8
  else none

def isSigned (f : Field) : Bool := f.code ∈ ['b', 'h', 'i', 'l', 'q']

def isWhole (f : Field) : Bool := f.isSigned || f.code ∈ ['B', 'H', 'I', 'L', 'Q']

def span (f : Field) : Nat := Number.twoPow (8 * f.width)

def halfSpan (f : Field) : Nat := Number.twoPow (8 * f.width - 1)

def least (f : Field) : Int := if f.isSigned then -(f.halfSpan : Int) else 0

def greatest (f : Field) : Int := if f.isSigned then (f.halfSpan : Int) - 1 else (f.span : Int) - 1

def rangeFault (f : Field) (n : Int) : Fault :=
  let range := toString f.least ++ " <= number <= " ++ toString f.greatest
  let word : Int := Number.twoPow 63
  let beyondWords := if f.isSigned || f.code == 'B' then n < -word || word ≤ n
    else n < 0 || 2 * word ≤ n
  if f.width < 8 && beyondWords then .packing "argument out of range"
  else if f.code == 'b' then .packing ("byte format requires " ++ range)
  else if f.code == 'B' then .packing ("ubyte format requires " ++ range)
  else .packing ("'" ++ String.singleton f.code ++ "' format requires " ++ range)

def packWhole (f : Field) (n : Int) : Except Fault (List UInt8) :=
  if n < f.least || f.greatest < n then .error (f.rangeFault n)
  else .ok (little f.width (n % (f.span : Int)).toNat)

def packReal (f : Field) (x : Float) : Except Fault (List UInt8) :=
  if f.width == 8 then .ok (little 8 x.toBits.toNat)
  else
    let s := Number.Single.ofFloat x
    if s.toFloat.isInf && !x.isInf then
      .error (.raised "OverflowError" "float too large to pack with f format")
    else .ok (word s.bits)

def pack (f : Field) (d : Datum) : Except Fault (List UInt8) :=
  if f.code == '?' then .ok [if d.holds then 1 else 0]
  else if f.isWhole then
    match d with
    | .int n => f.packWhole n
    | .flag b => f.packWhole (if b then 1 else 0)
    | _ => .error (.packing "required argument is not an integer")
  else
    let notReal := Fault.packing "required argument is not a float"
    match d with
    | .real x => f.packReal x
    | .flag b => f.packReal (if b then 1.0 else 0.0)
    | .int n => match Number.ofInt? n with
      | some x => f.packReal x
      | none => .error notReal
    | _ => .error notReal

def unpack (f : Field) (bytes : List UInt8) : Datum :=
  let n := ofLittle bytes
  if f.code == '?' then .flag (n != 0)
  else if f.code == 'f' then .real (Number.Single.toFloat ⟨n.toUInt32⟩)
  else if f.code == 'd' then .real (Float.ofBits n.toUInt64)
  else if f.isSigned && f.greatest < n then .int ((n : Int) - f.span)
  else .int n

end Field

abbrev Layout := List Field

namespace Layout

def parseFrom (count : Option Nat) : List Char → Except Fault Layout
  | [] =>
    if count.isSome then .error (.packing "repeat count given without format specifier") else .ok []
  | c :: rest =>
    if c.isDigit then parseFrom (some (count.getD 0 * 10 + (c.toNat - 48))) rest
    else if c.isWhitespace && count.isNone then parseFrom none rest
    else match Field.width? c with
      | none => .error (.packing "bad char in struct format")
      | some width => do
        pure (List.replicate (count.getD 1) ⟨c, width⟩ ++ (← parseFrom none rest))

def parse (letters : String) : Except Fault Layout := parseFrom none letters.toList

def size (l : Layout) : Nat := l.foldl (fun n f => n + f.width) 0

def isHolding (f : Field) : Bool := f.code != 'x'

def packFields : Layout → List Datum → Except Fault (List UInt8)
  | [], _ => .ok []
  | f :: rest, values =>
    if !isHolding f then do pure (0 :: (← packFields rest values))
    else match values with
      | [] => .ok []
      | v :: more => do
        let bytes ← f.pack v
        pure (bytes ++ (← packFields rest more))

def pack (l : Layout) (values : List Datum) : Except Fault (List UInt8) :=
  let expected := (l.filter isHolding).length
  if values.length != expected then
    .error (.packing ("pack expected " ++ toString expected ++ " items for packing (got " ++
      toString values.length ++ ")"))
  else l.packFields values

def unpackFields : Layout → List UInt8 → List Datum
  | [], _ => []
  | f :: rest, bytes =>
    let more := unpackFields rest (bytes.drop f.width)
    if isHolding f then f.unpack (bytes.take f.width) :: more else more

def unpack (l : Layout) (bytes : List UInt8) : Except Fault (List Datum) :=
  if bytes.length != l.size then
    .error (.packing ("unpack requires a buffer of " ++ toString l.size ++ " bytes"))
  else .ok (l.unpackFields bytes)

end Layout

def string (s : String) : List UInt8 :=
  let bytes := ofText s ++ [0]
  size bytes.length ++ bytes

end SceneExchange.Bytes
