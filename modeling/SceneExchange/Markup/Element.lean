import SceneExchange.Datum
import SceneExchange.Table

/-!
# Markup elements and their text

An element is written with a lead, the text that stands in front of its start tag and of its end
tag. Attribute values and text are written as they are, without escapes. An element whose only
child is text has its end tag right after it.
-/

namespace SceneExchange.Markup

mutual

inductive Element where
  | mk (name : String) (attributes : List (String × Datum)) (children : List Content)

inductive Content where
  | element (e : Element)
  | datum (d : Datum)

end

instance : Inhabited Element := ⟨.mk "" [] []⟩

instance : Inhabited Content := ⟨.datum .null⟩

namespace Element

def name : Element → String
  | .mk name _ _ => name

def attributes : Element → List (String × Datum)
  | .mk _ attributes _ => attributes

def children : Element → List Content
  | .mk _ _ children => children

def attributeText (attributes : List (String × Datum)) : String :=
  attributes.foldl (fun s (k, d) => s ++ " " ++ k ++ "=\"" ++ d.display ++ "\"") ""

def isInline : List Content → Bool
  | [.datum (.text _)] => true
  | _ => false

mutual

/-- The text of an element; `lead` stands in front of its start tag and `close` in front of its
end tag and, with one more tab, of its children. -/
def write (lead close : String) : Element → String
  | .mk name attributes [] => lead ++ "<" ++ name ++ attributeText attributes ++ "/>"
  | .mk name attributes children =>
    lead ++ "<" ++ name ++ attributeText attributes ++ ">" ++ writeContents (close ++ "\t") children
      ++ (if isInline children then "" else close) ++ "</" ++ name ++ ">"

def writeContents (lead : String) : List Content → String
  | [] => ""
  | .element e :: rest => write lead lead e ++ writeContents lead rest
  | .datum d :: rest => d.display ++ writeContents lead rest

end

def textUnder (lead : String) (e : Element) : String := e.write (lead ++ "\t") (lead ++ "\t")

def text (e : Element) : String := e.textUnder ""

def document (e : Element) : String := e.write "" "\n"

def leaf (name : String) (attributes : List (String × Datum)) : Element := .mk name attributes []

end Element

end SceneExchange.Markup
