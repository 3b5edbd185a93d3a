import SceneExchange.Text.Printable

/-!
# Quoted text

Single quotes, or double quotes when the text holds a single quote and no double one. The quote
in use and the backslash are escaped, and so is every character that is not printable.
-/

namespace SceneExchange.Text

def singleQuote : Char := Char.ofNat 39

def doubleQuote : Char := Char.ofNat 34

def backslash : Char := Char.ofNat 92

def hexDigit (n : Nat) : Char :=
  if n < 10 then Char.ofNat (48 + n) else Char.ofNat (87 + n)

def hexDigits : Nat → Nat → List Char
  | 0, _ => []
  | width + 1, n => hexDigits width (n / 16) ++ [hexDigit (n % 16)]

def escapeUnprintable (c : Char) : List Char :=
  let n := c.toNat
  if n < 0x100 then [backslash, 'x'] ++ hexDigits 2 n
  else if n < 0x10000 then [backslash, 'u'] ++ hexDigits 4 n
  else [backslash, 'U'] ++ hexDigits 8 n

def escapeChar (quote c : Char) : List Char :=
  if c == quote || c == backslash then [backslash, c]
  else if c == '\n' then [backslash, 'n']
  else if c == '\r' then [backslash, 'r']
  else if c == '\t' then [backslash, 't']
  else if isPrintable c then [c]
  else escapeUnprintable c

def quoteFor (s : String) : Char :=
  if s.toList.contains singleQuote && !s.toList.contains doubleQuote then doubleQuote
  else singleQuote

def quoted (s : String) : String :=
  let q := quoteFor s
  String.ofList (q :: s.toList.flatMap (escapeChar q) ++ [q])

end SceneExchange.Text
