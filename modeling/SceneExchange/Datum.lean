import SceneExchange.Number.Shortest
import SceneExchange.Text.Quoted

/-!
# Loosely typed values

Properties, attributes and printed records hold values whose kind is known only when they are
read. A datum is one of them; `display` is its plain text and `literal` the text in which it
stands inside another value.
-/

namespace SceneExchange

inductive Datum where
  | null
  | flag (b : Bool)
  | int (n : Int)
  | real (x : Float)
  | text (s : String)
  | list (items : List Datum)
  | tuple (items : List Datum)
  | dict (entries : List (Datum × Datum))
  | shown (literal : String)
  deriving Inhabited

namespace Datum

def flagText (b : Bool) : String := if b then "True" else "False"

def intText (n : Int) : String := toString n

mutual

def literal : Datum → String
  | .null => "None"
  | .flag b => flagText b
  | .int n => intText n
  | .real x => Number.shortest x
  | .text s => Text.quoted s
  | .list items => "[" ++ literals items ++ "]"
  | .tuple [] => "()"
  | .tuple [d] => "(" ++ literal d ++ ",)"
  | .tuple items => "(" ++ literals items ++ ")"
  | .dict entries => "\x7b" ++ entryLiterals entries ++ "\x7d"
  | .shown s => s

def literals : List Datum → String
  | [] => ""
  | [d] => literal d
  | d :: rest => literal d ++ ", " ++ literals rest

def entryLiterals : List (Datum × Datum) → String
  | [] => ""
  | [(k, d)] => literal k ++ ": " ++ literal d
  | (k, d) :: rest => literal k ++ ": " ++ literal d ++ ", " ++ entryLiterals rest

end

def display : Datum → String
  | .text s => s
  | d => d.literal

def holds : Datum → Bool
  | .null => false
  | .flag b => b
  | .int n => n != 0
  | .real x => x != 0.0
  | .text s => !s.isEmpty
  | .list items => !items.isEmpty
  | .tuple items => !items.isEmpty
  | .dict entries => !entries.isEmpty
  | .shown _ => true

def kindName : Datum → String
  | .null => "NoneType"
  | .flag _ => "bool"
  | .int _ => "int"
  | .real _ => "float"
  | .text _ => "str"
  | .list _ => "list"
  | .tuple _ => "tuple"
  | .dict _ => "dict"
  | .shown _ => "object"

def record (entries : List (String × Datum)) : Datum :=
  .dict (entries.map fun (k, d) => (.text k, d))

@[simp] theorem display_text (s : String) : (text s).display = s := rfl

@[simp] theorem display_int (n : Int) : (int n).display = toString n := by
  simp [display, literal, intText]

end Datum

end SceneExchange
