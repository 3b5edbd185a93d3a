import SceneExchange.Json.Value
import SceneExchange.Number.Shortest
import SceneExchange.Text.Quoted

/-!
# The text of a JSON value

A value is written on one line without blanks.
-/

namespace SceneExchange.Json

def escapeChar (c : Char) : List Char :=
  let n := c.toNat
  if n == 34 || n == 92 then [Text.backslash, c]
  else if n < 32 then Text.backslash :: 'u' :: Text.hexDigits 4 n
  else [c]

def stringText (s : String) : String :=
  "\"" ++ String.ofList (s.toList.flatMap escapeChar) ++ "\""

mutual

def render : Json → String
  | .null => "null"
  | .bool b => if b then "true" else "false"
  | .int n => toString n
  | .real x => Number.shortest x
  | .str s => stringText s
  | .arr items => "[" ++ renderItems items ++ "]"
  | .obj members => "\x7b" ++ renderMembers members ++ "\x7d"

def renderItems : List Json → String
  | [] => ""
  | [j] => render j
  | j :: rest => render j ++ "," ++ renderItems rest

def renderMembers : List (String × Json) → String
  | [] => ""
  | [(k, j)] => stringText k ++ ":" ++ render j
  | (k, j) :: rest => stringText k ++ ":" ++ render j ++ "," ++ renderMembers rest

end

end SceneExchange.Json
