import SceneExchange.Number.Binary
import SceneExchange.Text.Blank
import SceneExchange.Text.Digit

/-!
# Reading numerals

Blanks around a numeral are dropped, an underscore may stand between two digits, and digits of
every script count. Of the blanks that are not ASCII a space is made first, while the separators of
ASCII, which count as blanks elsewhere, are kept.
-/

namespace SceneExchange.Number

open Text

def isAscii (c : Char) : Bool := c.toNat < 128

def normalizeNumeral (cs : List Char) : List Char :=
  cs.map fun c =>
    if isAscii c then c
    else if isBlank c then ' '
    else match digitValue? c with
      | some d => Char.ofNat (48 + d)
      | none => c

def isDigit (c : Char) : Bool := '0' ≤ c && c ≤ '9'

def digitsValue (cs : List Char) : Nat :=
  cs.foldl (fun n c => 10 * n + (c.toNat - 48)) 0

def dropUnderscores : (previous : Char) → List Char → Option (List Char)
  | _, [] => some []
  | p, '_' :: c :: rest =>
    if isDigit p && isDigit c then (dropUnderscores c rest).map (c :: ·) else none
  | _, '_' :: [] => none
  | _, c :: rest => (dropUnderscores c rest).map (c :: ·)

def takeSign : List Char → Bool × List Char
  | '-' :: rest => (true, rest)
  | '+' :: rest => (false, rest)
  | cs => (false, cs)

def lowerAscii (c : Char) : Char := if 'A' ≤ c && c ≤ 'Z' then Char.ofNat (c.toNat + 32) else c

def readExponent? : List Char → Option Int
  | cs =>
    let (negative, digits) := takeSign cs
    if digits.isEmpty || !digits.all isDigit then none
    else
      let n : Int := digitsValue digits
      some (if negative then -n else n)

def readUnsigned? (negative : Bool) (cs : List Char) : Option Float :=
  let whole := cs.takeWhile isDigit
  let rest := cs.dropWhile isDigit
  let (fraction, rest) := match rest with
    | '.' :: r => (r.takeWhile isDigit, r.dropWhile isDigit)
    | r => ([], r)
  if whole.isEmpty && fraction.isEmpty then none
  else
    let finish (exponent : Int) : Option Float :=
      some (ofDecimal negative (digitsValue (whole ++ fraction)) (exponent - fraction.length))
    match rest with
    | [] => finish 0
    | c :: r => if c == 'e' || c == 'E' then (readExponent? r).bind finish else none

def readReal? (s : String) : Option Float :=
  let cs := trimWith isAsciiBlank (normalizeNumeral s.toList)
  match dropUnderscores ' ' cs with
  | none => none
  | some cs =>
    let (negative, body) := takeSign cs
    let word := String.ofList (body.map lowerAscii)
    if word == "inf" || word == "infinity" then some (infinity negative)
    else if word == "nan" then some notANumber
    else readUnsigned? negative body

def readInteger? (s : String) : Option Int :=
  let cs := trimWith isAsciiBlank (normalizeNumeral s.toList)
  let (negative, body) := takeSign cs
  match dropUnderscores ' ' body with
  | none => none
  | some digits =>
    if digits.isEmpty || !digits.all isDigit then none
    else
      let n : Int := digitsValue digits
      some (if negative then -n else n)

end SceneExchange.Number
