import SceneExchange.Json.Value
import SceneExchange.Number.Numeral

/-!
# Reading JSON text

Besides the standard grammar the words `NaN`, `Infinity` and `-Infinity` are numbers. Control
characters inside strings are refused. A recursion takes fuel from the length of the text, and
each step of it consumes a character or answers.
-/

namespace SceneExchange.Json

open Number

def isSpace (c : Char) : Bool := c == ' ' || c == '\t' || c == '\n' || c == '\r'

def skipSpace (cs : List Char) : List Char := cs.dropWhile isSpace

def hexValue? (c : Char) : Option Nat :=
  if isDigit c then some (c.toNat - 48)
  else if 'a' ≤ c && c ≤ 'f' then some (c.toNat - 87)
  else if 'A' ≤ c && c ≤ 'F' then some (c.toNat - 55)
  else none

def readHex4 : List Char → Option (Nat × List Char)
  | a :: b :: c :: d :: rest =>
    match hexValue? a, hexValue? b, hexValue? c, hexValue? d with
    | some w, some x, some y, some z => some (((w * 16 + x) * 16 + y) * 16 + z, rest)
    | _, _, _, _ => none
  | _ => none

def isHighSurrogate (n : Nat) : Bool := 0xD800 ≤ n && n < 0xDC00

def isLowSurrogate (n : Nat) : Bool := 0xDC00 ≤ n && n < 0xE000

def readUnicodeEscape (cs : List Char) : Option (Char × List Char) :=
  match readHex4 cs with
  | none => none
  | some (n, rest) =>
    if isHighSurrogate n then
      match rest with
      | b :: 'u' :: more =>
        match readHex4 more with
        | some (m, rest') =>
          if b.toNat == 92 && isLowSurrogate m then
            some (Char.ofNat (0x10000 + (n - 0xD800) * 0x400 + (m - 0xDC00)), rest')
          else some (Char.ofNat 0xFFFD, rest)
        | none => some (Char.ofNat 0xFFFD, rest)
      | _ => some (Char.ofNat 0xFFFD, rest)
    else if isLowSurrogate n then some (Char.ofNat 0xFFFD, rest)
    else some (Char.ofNat n, rest)

def simpleEscape? (c : Char) : Option Char :=
  if c == 'n' then some '\n'
  else if c == 't' then some '\t'
  else if c == 'r' then some '\r'
  else if c == 'b' then some (Char.ofNat 8)
  else if c == 'f' then some (Char.ofNat 12)
  else if c == '/' || c.toNat == 34 || c.toNat == 92 then some c
  else none

def readString : Nat → List Char → List Char → Option (String × List Char)
  | 0, _, _ => none
  | _, _, [] => none
  | fuel + 1, acc, c :: rest =>
    if c.toNat == 34 then some (String.ofList acc.reverse, rest)
    else if c.toNat == 92 then
      match rest with
      | 'u' :: more =>
        match readUnicodeEscape more with
        | some (u, rest') => readString fuel (u :: acc) rest'
        | none => none
      | e :: more =>
        match simpleEscape? e with
        | some x => readString fuel (x :: acc) more
        | none => none
      | [] => none
    else if c.toNat < 32 then none
    else readString fuel (c :: acc) rest

def readNumber (cs : List Char) : Option (Json × List Char) :=
  let (negative, body) := match cs with
    | '-' :: r => (true, r)
    | r => (false, r)
  let whole := match body with
    | '0' :: _ => ['0']
    | r => r.takeWhile isDigit
  if whole.isEmpty then none
  else
    let rest := body.drop whole.length
    let (fraction, rest) := match rest with
      | '.' :: r =>
        let ds := r.takeWhile isDigit
        if ds.isEmpty then ([], rest) else (ds, r.drop ds.length)
      | r => ([], r)
    let (exponent, rest) : Option Int × List Char := match rest with
      | e :: r =>
        if e == 'e' || e == 'E' then
          let (minus, r') := takeSign r
          let ds := r'.takeWhile isDigit
          if ds.isEmpty then (none, rest)
          else
            let n : Int := digitsValue ds
            (some (if minus then -n else n), r'.drop ds.length)
        else (none, rest)
      | [] => (none, rest)
    if fraction.isEmpty && exponent.isNone then
      let n : Int := digitsValue whole
      some (.int (if negative then -n else n), rest)
    else
      let e := exponent.getD 0 - fraction.length
      some (.real (ofDecimal negative (digitsValue (whole ++ fraction)) e), rest)

def readWord (word : String) (cs : List Char) : Option (List Char) :=
  if word.toList.isPrefixOf cs then some (cs.drop word.length) else none

def readConstant (cs : List Char) : Option (Json × List Char) :=
  let named (word : String) (j : Json) := (readWord word cs).map fun rest => (j, rest)
  named "null" .null <|> named "true" (.bool true) <|> named "false" (.bool false)
    <|> named "NaN" (.real notANumber) <|> named "Infinity" (.real (infinity false))
    <|> named "-Infinity" (.real (infinity true))

mutual

def readValue : Nat → List Char → Option (Json × List Char)
  | 0, _ => none
  | fuel + 1, cs =>
    match skipSpace cs with
    | '[' :: rest =>
      match skipSpace rest with
      | ']' :: after => some (.arr [], after)
      | items => readItems fuel [] items
    | '\x7b' :: rest =>
      match skipSpace rest with
      | '\x7d' :: after => some (.obj [], after)
      | members => readMembers fuel [] members
    | c :: rest =>
      if c.toNat == 34 then (readString (rest.length + 1) [] rest).map fun (s, r) => (.str s, r)
      else readConstant (c :: rest) <|> readNumber (c :: rest)
    | [] => none

def readItems : Nat → List Json → List Char → Option (Json × List Char)
  | 0, _, _ => none
  | fuel + 1, acc, cs =>
    match readValue fuel cs with
    | none => none
    | some (j, rest) =>
      match skipSpace rest with
      | ',' :: more => readItems fuel (j :: acc) more
      | ']' :: after => some (.arr (j :: acc).reverse, after)
      | _ => none

def readMembers : Nat → List (String × Json) → List Char → Option (Json × List Char)
  | 0, _, _ => none
  | fuel + 1, acc, cs =>
    match skipSpace cs with
    | q :: body =>
      if q.toNat != 34 then none
      else match readString (body.length + 1) [] body with
        | none => none
        | some (name, rest) =>
          match skipSpace rest with
          | ':' :: rest =>
            match readValue fuel rest with
            | none => none
            | some (j, rest) =>
              match skipSpace rest with
              | ',' :: more => readMembers fuel ((name, j) :: acc) more
              | '\x7d' :: after => some (.obj ((name, j) :: acc).reverse, after)
              | _ => none
          | _ => none
    | [] => none

end

def parse? (s : String) : Option Json :=
  let cs := s.toList
  match readValue (2 * cs.length + 2) cs with
  | some (j, rest) => if (skipSpace rest).isEmpty then some j else none
  | none => none

end SceneExchange.Json
