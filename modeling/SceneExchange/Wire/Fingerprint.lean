import SceneExchange.Fingerprint.Survey
import SceneExchange.Number.Decimal
import SceneExchange.Path
import SceneExchange.Wire.Basic

/-!
# Values with a fingerprint, described in JSON

An object with the member `$` names a type that JSON does not have.
-/

namespace SceneExchange.Wire

open Fingerprint (Value)

def plainNumber (s : String) : String := toString (s.toNat?.getD 0)

def dateText (s : String) : String :=
  "datetime.date(" ++ ", ".intercalate ((s.splitOn "-").map plainNumber) ++ ")"

def fractionText (s : String) : String :=
  let (n, d) : Int × Nat := match s.splitOn "/" with
    | [n, d] => ((Number.readInteger? n).getD 0, ((Number.readInteger? d).getD 1).toNat)
    | _ =>
      match Number.ExactDecimal.read? s with
      | some d =>
        let (n, den) := Number.scaled 10 d.digits 1 d.exponent
        (if d.negative then -(n : Int) else n, den)
      | none => (0, 1)
  let g := Nat.gcd n.natAbs d
  "Fraction(" ++ toString (n / g) ++ ", " ++ toString (d / g) ++ ")"

def decimalText (s : String) : String :=
  "Decimal(" ++ Text.quoted (match Number.ExactDecimal.read? s with
    | some d => d.text
    | none => s) ++ ")"

def pathText (s : String) : String :=
  let slashes := (s.toList.takeWhile (· == '/')).length
  let root := if slashes = 0 then "" else if slashes = 2 then "//" else "/"
  let parts := (s.splitOn "/").filter fun p => p ≠ "" && p ≠ "."
  let path := root ++ "/".intercalate parts
  "PurePosixPath(" ++ Text.quoted (if path.isEmpty then "." else path) ++ ")"

def uuidText (s : String) : String :=
  let digits := (s.toList.filter (Json.hexValue? · |>.isSome)).map Number.lowerAscii
  let part (start count : Nat) : String := String.ofList ((digits.drop start).take count)
  "UUID(" ++ Text.quoted (part 0 8 ++ "-" ++ part 8 4 ++ "-" ++ part 12 4 ++ "-" ++ part 16 4 ++
    "-" ++ part 20 12) ++ ")"

def cellCode : String → String
  | "int64" => "<i8"
  | "int32" => "<i4"
  | "uint8" => "|u1"
  | "bool" => "|b1"
  | "float32" => "<f4"
  | "float64" => "<f8"
  | other => other

def arrayCell (cell : String) (j : Json) : Value :=
  match cell with
  | "float32" => .real (Number.toSingle (real j))
  | "float64" => .real (real j)
  | "bool" => .flag (match j with
    | .bool b => b
    | j => real j != 0.0)
  | _ => .int (match j with
    | .bool b => if b then 1 else 0
    | j => int j 0)

def arrayValue (j : Json) : Value :=
  let cells := items (field j "x")
  let cell := text (field j "dtype") "float64"
  let shape := match field j "shape" with
    | .arr ns => ns.map datum
    | _ => [.int cells.length]
  .array (cellCode cell) (Datum.tuple shape).literal (cells.map (arrayCell cell))

def plainValue (type : String) (j : Json) : Value :=
  let x := field j "x"
  match type with
  | "bytes" | "bytearray" | "memoryview" => .bytes type (hexBytes x)
  | "float" => .real ((special? (text x "")).getD (real x))
  | "complex" => .complex (real (nth (items x) 0)) (real (nth (items x) 1))
  | "array" => arrayValue j
  | "range" => .sequence "range" ((List.range (count x)).map fun n => .int (Int.ofNat n))
  | "decimal" => .shown "Decimal" (decimalText (text x ""))
  | "fraction" => .shown "Fraction" (fractionText (text x ""))
  | "date" => .shown "date" (dateText (text x ""))
  | "path" => .shown "PurePosixPath" (pathText (text x ""))
  | "uuid" => .shown "UUID" (uuidText (text x ""))
  | _ => .shown "object" "<builtins.object>"

def pairs : List Value → List (Value × Value)
  | [] => []
  | .sequence _ [k, v] :: rest => (k, v) :: pairs rest
  | _ :: rest => pairs rest

def isPart : Value × Value → Bool
  | (.text k, _) => k ≠ "$"
  | _ => true

mutual

def value : Json → Value
  | .null => .null
  | .bool b => .flag b
  | .int n => .int n
  | .real x => .real x
  | .str s => .text s
  | .arr xs => .sequence "list" (values xs)
  | .obj ms =>
    match Json.member? "$" (.obj ms) with
    | some (.str "tuple") => .sequence "tuple" (itemValues ms)
    | some (.str "set") => .set "set" (Value.distinct (itemValues ms))
    | some (.str "frozenset") => .set "frozenset" (Value.distinct (itemValues ms))
    | some (.str "dict") => .dict (Value.entriesOf (pairs (itemValues ms)))
    | some (.str "point") => .record "Point" ((entries ms).filter isPart)
    | some (.str type) => plainValue type (.obj ms)
    | _ => .dict (Value.entriesOf (entries ms))

def values : List Json → List Value
  | [] => []
  | j :: rest => value j :: values rest

def entries : List (String × Json) → List (Value × Value)
  | [] => []
  | (k, j) :: rest => (.text k, value j) :: entries rest

def itemValues : List (String × Json) → List Value
  | [] => []
  | (k, .arr xs) :: rest => if k == "x" then values xs else itemValues rest
  | _ :: rest => itemValues rest

end

def parameters (j : Json) : Fingerprint.Parameters :=
  (members j).map fun (k, v) => (k, datum v, value v)

def subject (name : String) (j : Json) : Fingerprint.Subject :=
  { name := name
    raises := text? j "raises"
    returns := value (field j "returns")
    calls := ((items (field j "params")).zip (items (field j "results"))).map fun (p, r) =>
      (parameters p, value r) }

def surveyRow (r : Fingerprint.Row) : Json :=
  .obj [("ret_type", .str r.type), ("fp_stable", strings r.stable),
    ("fp_by_param", .obj (r.byParameters.entries.map fun (k, f) => (k, .str f))),
    ("param_fps", strings r.parameters), ("repo_tt_ms", strings r.timed),
    ("repo_frac", strings r.timed), ("ext_frac", strings r.timed)]

end SceneExchange.Wire
