import SceneExchange.Bytes.Word
import SceneExchange.Graph.Socket
import SceneExchange.Json.Reader
import SceneExchange.Log

/-!
# Values in JSON

Descriptions of scenes come as JSON and results go out as JSON. A real number that JSON has no
numeral for is described as `{"f": "nan"}`, and a double goes out by its bits, so that nothing of it
is lost.
-/

namespace SceneExchange.Wire

/-! ## Reading -/

def field (j : Json) (k : String) : Json := (j.member? k).getD .null

def has (j : Json) (k : String) : Bool := (j.member? k).isSome

def items : Json → List Json
  | .arr xs => xs
  | _ => []

def nth (xs : List Json) (i : Nat) : Json := xs[i]?.getD .null

def members : Json → List (String × Json)
  | .obj ms => ms
  | _ => []

def text (j : Json) (default : String) : String :=
  match j with
  | .str s => s
  | _ => default

def texts (j : Json) : List String := (items j).map (text · "")

def text? (j : Json) (k : String) : Option String := (j.member? k).map (text · "")

def bool (j : Json) (default : Bool) : Bool :=
  match j with
  | .bool b => b
  | _ => default

def int (j : Json) (default : Int) : Int :=
  match j with
  | .int n => n
  | _ => default

def count (j : Json) : Nat := (int j 0).toNat

def special? : String → Option Float
  | "inf" => some (Number.infinity false)
  | "-inf" => some (Number.infinity true)
  | "nan" => some Number.notANumber
  | _ => none

def real : Json → Float
  | .int n => (Number.ofInt? n).getD (Number.infinity (n < 0))
  | .real x => x
  | .bool b => if b then 1.0 else 0.0
  | .obj [("f", .str s)] => (special? s).getD Number.notANumber
  | _ => 0.0

def reals (j : Json) : List Float := (items j).map real

mutual

def datum : Json → Datum
  | .null => .null
  | .bool b => .flag b
  | .int n => .int n
  | .real x => .real x
  | .str s => .text s
  | .arr xs => .list (data xs)
  | .obj [("f", .str s)] =>
    match special? s with
    | some x => .real x
    | none => .dict [(.text "f", .text s)]
  | .obj ms => .dict (entryData ms)

def data : List Json → List Datum
  | [] => []
  | j :: rest => datum j :: data rest

def entryData : List (String × Json) → List (Datum × Datum)
  | [] => []
  | (k, j) :: rest => (.text k, datum j) :: entryData rest

end

def tupled (j : Json) : Datum :=
  match datum j with
  | .list xs => .tuple xs
  | d => d

def datumOr (j : Json) (k : String) (default : Datum) : Datum :=
  match j.member? k with
  | some v => datum v
  | none => default

def socketValue : Json → Graph.SocketValue
  | .arr xs => .tuple (data xs)
  | .obj [("v", .arr xs)] => .vector (xs.map real)
  | .obj [("e", .arr xs)] => .euler (xs.map real)
  | .obj [("a", .arr xs)] => .array (data xs)
  | j => .single (datum j)

def bytesOfHex : List Char → List UInt8
  | a :: b :: rest =>
    (((Json.hexValue? a).getD 0) * 16 + (Json.hexValue? b).getD 0).toUInt8 :: bytesOfHex rest
  | _ => []

def hexBytes (j : Json) : List UInt8 := bytesOfHex (text j "").toList

def placeOf (names : List String) : Json → Option Nat
  | .str s => names.findIdx? (· == s)
  | _ => none

/-! ## Writing -/

def double (x : Float) : Json :=
  if x.isNaN then .str "nan" else .str ("0x" ++ String.ofList (Text.hexDigits 16 x.toBits.toNat))

mutual

def encode : Datum → Json
  | .null => .null
  | .flag b => .bool b
  | .int n => .int n
  | .real x => double x
  | .text s => .str s
  | .list xs => .arr (encodeAll xs)
  | .tuple xs => .arr (encodeAll xs)
  | .dict es => .obj (encodeEntries es)
  | .shown s => .str s

def encodeAll : List Datum → List Json
  | [] => []
  | d :: rest => encode d :: encodeAll rest

def encodeEntries : List (Datum × Datum) → List (String × Json)
  | [] => []
  | (k, d) :: rest => (k.display, encode d) :: encodeEntries rest

end

def strings (xs : List String) : Json := .arr (xs.map .str)

def orNull {α : Type} (f : α → Json) : Option α → Json
  | some a => f a
  | none => .null

def member {α : Type} (k : String) (f : α → Json) : Option α → List (String × Json)
  | some a => [(k, f a)]
  | none => []

def hexText (bytes : List UInt8) : Json := .str (Bytes.hex bytes)

def column (cell : String) (shape : List Nat) (bytes : List UInt8) : Json :=
  .obj [("dtype", .str cell), ("shape", .arr (shape.map fun n => Json.int (Int.ofNat n))), ("hex", hexText bytes)]

def words (cell : String) (ws : List UInt32) : Json :=
  column cell [ws.length] (ws.flatMap Bytes.word)

def doubles (bits : List UInt64) : Json :=
  column "float64" [bits.length] (bits.flatMap fun b => Bytes.little 8 b.toNat)

def longs (ns : List Nat) : Json := column "int64" [ns.length] (ns.flatMap (Bytes.little 8))

def logLines (least : LogLevel) (lines : List LogLine) : Json :=
  .arr ((logFrom least lines).map fun l => .arr [.str l.level.name, .str l.message])

end SceneExchange.Wire
