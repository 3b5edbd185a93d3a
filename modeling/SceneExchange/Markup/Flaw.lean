import SceneExchange.Fault

/-!
# Why a text is no document

A flaw is reported with the line and the column where it lies. Lines count from one, columns from
zero.
-/

namespace SceneExchange.Markup

inductive Flaw where
  | noElement
  | invalidToken
  | unclosedToken
  | unclosedSection
  | mismatchedTag
  | duplicateAttribute
  | invalidReference
  | undefinedEntity
  | unboundPrefix
  | undeclaredPrefix
  | reservedPrefix
  | misplacedDeclaration
  | malformedDeclaration
  | unexpectedToken
  deriving Repr, DecidableEq

def Flaw.text : Flaw → String
  | noElement => "no element found"
  | invalidToken => "not well-formed (invalid token)"
  | unclosedToken => "unclosed token"
  | unclosedSection => "unclosed CDATA section"
  | mismatchedTag => "mismatched tag"
  | duplicateAttribute => "duplicate attribute"
  | invalidReference => "reference to invalid character number"
  | undefinedEntity => "undefined entity"
  | unboundPrefix => "unbound prefix"
  | undeclaredPrefix => "must not undeclare prefix"
  | reservedPrefix => "reserved prefix (xmlns) must not be declared or undeclared"
  | misplacedDeclaration => "XML or text declaration not at start of entity"
  | malformedDeclaration => "XML declaration not well-formed"
  | unexpectedToken => "syntax error"

structure Trouble where
  flaw : Flaw
  rest : List Char
  deriving Repr, DecidableEq

structure Position where
  line : Nat
  column : Nat
  deriving Repr, DecidableEq

namespace Position

def next (p : Position) (c : Char) : Position :=
  if c == '\n' then ⟨p.line + 1, 0⟩ else ⟨p.line, p.column + 1⟩

def ofRest (text rest : List Char) : Position :=
  (text.take (text.length - rest.length)).foldl next ⟨1, 0⟩

end Position

def Trouble.fault (t : Trouble) (text : List Char) : Fault :=
  let p := Position.ofRest text t.rest
  .malformedMarkup (t.flaw.text ++ ": line " ++ toString p.line ++ ", column " ++
    toString p.column)

end SceneExchange.Markup
