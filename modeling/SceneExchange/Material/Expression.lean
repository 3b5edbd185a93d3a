import SceneExchange.Markup.Element

/-!
# Material expressions

A material is a list of expressions that refer to each other by position. A source is such a
reference: the expression and which of its outputs.
-/

namespace SceneExchange.Material

structure Source where
  expression : Datum
  output : Datum
  deriving Inhabited

namespace Source

def nothing (output : Datum) : Source := ⟨.int (-1), output⟩

end Source

inductive Part where
  | input (name : String) (source : Source)
  | text (s : String)
  | element (e : Markup.Element)
  deriving Inhabited

namespace Part

def inputText (name : String) (source : Source) : String :=
  "\n\t\t\t\t<Input Name=\"" ++ name ++ "\" expression=\"" ++ source.expression.display ++
    "\" OutputIndex=\"" ++ source.output.display ++ "\"/>"

def content : Part → Markup.Content
  | .input name source => .datum (.text (inputText name source))
  | .text s => .datum (.text s)
  | .element e => .element e

end Part

structure Expression where
  tag : String
  attributes : List (String × Datum)
  parts : List Part
  deriving Inhabited

namespace Expression

def element (e : Expression) : Markup.Element := .mk e.tag e.attributes (e.parts.map Part.content)

def call (path : String) (parts : List Part) : Expression :=
  ⟨"FunctionCall", [("Function", .text path)], parts⟩

def plain (tag : String) (parts : List Part) : Expression := ⟨tag, [], parts⟩

def list (expressions : List Expression) : Markup.Element :=
  .mk "Expressions" [] (expressions.map fun e => .element e.element)

end Expression

def channelText (channel : String) (source : Source) : String :=
  let first := match source.output with
    | .int n => n == 0
    | .flag b => !b
    | .real x => x == 0.0
    | _ => false
  if first then "\n\t\t<" ++ channel ++ " expression=\"" ++ source.expression.display ++ "\"/>"
  else "\n\t\t<" ++ channel ++ " expression=\"" ++ source.expression.display ++
    "\" OutputIndex=\"" ++ source.output.display ++ "\"/>"

end SceneExchange.Material
