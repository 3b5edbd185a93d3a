import SceneExchange.Bytes.Word
import SceneExchange.Datum

/-!
# Values with a fingerprint

A value has the name of its type and is fed to the fingerprint as bytes. The order of a table is
that of the fingerprints of its keys, and a set is fed by the fingerprints of its members, so that
neither depends on the order in which it was filled. Reals are rounded to six digits first.

A value inside of more than eight others is not opened, and of a sequence of more than two thousand
items only some are fed. What is fed in their place is left open, and so is the choice of the items.
-/

namespace SceneExchange.Fingerprint

inductive Value where
  | null
  | flag (b : Bool)
  | int (n : Int)
  | real (x : Float)
  | complex (re im : Float)
  | text (s : String)
  | bytes (type : String) (bs : List UInt8)
  | sequence (type : String) (items : List Value)
  | set (type : String) (items : List Value)
  | dict (entries : List (Value × Value))
  | array (cell shape : String) (items : List Value)
  | record (type : String) (parts : List (Value × Value))
  | shown (type text : String)
  deriving Inhabited

namespace Value

def typeName : Value → String
  | .null => "NoneType"
  | .flag _ => "bool"
  | .int _ => "int"
  | .real _ => "float"
  | .complex _ _ => "complex"
  | .text _ => "str"
  | .bytes type _ => type
  | .sequence type _ => type
  | .set type _ => type
  | .dict _ => "dict"
  | .array _ _ _ => "ndarray"
  | .record type _ => type
  | .shown type _ => type

def orderOf (x : Float) : Int :=
  match Number.decode x with
  | .finite _ mantissa exponent =>
    let (n, d) := Number.scaled 2 mantissa 1 exponent
    Number.decimalOrder n d - 1
  | _ => 0

def sixDigits (x : Float) : Float :=
  if x == 0.0 then 0.0
  else if x.isNaN || x.isInf then x
  else Number.roundPlaces x (5 - orderOf x)

def realText (x : Float) : String := Number.shortest (sixDigits x)

def sizeText (mark : String) (size : Nat) : List UInt8 := Bytes.ofText (mark ++ toString size)

def deepest : Nat := 8

def longest : Nat := 2000

structure Omissions where
  /-- What is fed for a value that is not opened. -/
  deep : Value → List UInt8
  /-- The places of a sequence of some length that are fed, and where there is a gap. -/
  plan : Nat → List (Option Nat)
  /-- What is fed for a gap between items of some depth. -/
  gap : Nat → List UInt8

def Omissions.chosen (o : Omissions) (depth : Nat) (fed : List (List UInt8)) : List UInt8 :=
  if fed.length ≤ longest then fed.flatten
  else (o.plan fed.length).flatMap fun
    | some i => fed[i]?.getD []
    | none => o.gap depth

variable (digest : List UInt8 → String) (o : Omissions)

def inOrder (entries : List (String × List UInt8)) : List UInt8 :=
  (entries.mergeSort fun a b => a.1 ≤ b.1).flatMap (·.2)

mutual

def feed (depth : Nat) (v : Value) : List UInt8 :=
  if deepest < depth then o.deep v
  else match v with
    | .null => Bytes.ofText "None"
    | .flag b => Bytes.ofText (Datum.flagText b)
    | .int n => Bytes.ofText (toString n)
    | .real x => Bytes.ofText (realText x)
    | .complex re im => Bytes.ofText ("c" ++ realText re ++ realText im)
    | .text s => Bytes.ofText ("s" ++ s)
    | .bytes _ bs => Bytes.ofText "s" ++ bs
    | .sequence _ items => sizeText "L" items.length ++ o.chosen (depth + 1) (feedAll (depth + 1) items)
    | .set _ items => sizeText "S" items.length ++
        Bytes.ofText (String.join (((feedAll 0 items).map digest).mergeSort (· ≤ ·)))
    | .dict entries => sizeText "D" entries.length ++ inOrder (feedEntries (depth + 1) entries)
    | .array cell shape items => Bytes.ofText ("A" ++ cell ++ shape) ++ (feedAll (depth + 1) items).flatten
    | .record _ parts =>
      if deepest < depth + 1 then o.deep (.dict parts)
      else sizeText "D" parts.length ++ inOrder (feedEntries (depth + 2) parts)
    | .shown _ s => Bytes.ofText s

def feedAll (depth : Nat) : List Value → List (List UInt8)
  | [] => []
  | v :: rest => feed depth v :: feedAll depth rest

def feedEntries (depth : Nat) : List (Value × Value) → List (String × List UInt8)
  | [] => []
  | (k, v) :: rest => (digest (feed 0 k), feed depth k ++ feed depth v) :: feedEntries depth rest

end

def fingerprint (v : Value) : String := digest (v.feed digest o 0)

/-! ## Equality -/

def number? : Value → Option (Int ⊕ Float)
  | .flag b => some (.inl (if b then 1 else 0))
  | .int n => some (.inl n)
  | .real x => some (.inr x)
  | _ => none

def sameNumber : Int ⊕ Float → Int ⊕ Float → Bool
  | .inl a, .inl b => a == b
  | .inl a, .inr x | .inr x, .inl a => Number.ofInt? a == some x
  | .inr x, .inr y => x == y

mutual

def same : Value → Value → Bool
  | .null, .null => true
  | .text a, .text b => a == b
  | .bytes _ a, .bytes _ b => a == b
  | .sequence s a, .sequence t b => s == t && sameAll a b
  | .shown s a, .shown t b => s == t && a == b
  | a, b =>
    match a.number?, b.number? with
    | some x, some y => sameNumber x y
    | _, _ => false

def sameAll : List Value → List Value → Bool
  | [], [] => true
  | a :: as, b :: bs => same a b && sameAll as bs
  | _, _ => false

end

def distinct (items : List Value) : List Value :=
  items.foldl (fun kept v => if kept.any (same v) then kept else kept ++ [v]) []

def insertEntry (k v : Value) : List (Value × Value) → List (Value × Value)
  | [] => [(k, v)]
  | (k', w) :: rest => if same k' k then (k', v) :: rest else (k', w) :: insertEntry k v rest

def entriesOf (pairs : List (Value × Value)) : List (Value × Value) :=
  pairs.foldl (fun es (k, v) => insertEntry k v es) []

end Value

end SceneExchange.Fingerprint
