import SceneExchange.Text.Quoted

/-!
# Rows of comma separated values

A field that starts with a quote goes up to the closing quote, and holds commas, line ends and, where
a quote stands twice, quotes. What follows the closing quote up to the next comma belongs to the
field as it is. A row without a field comes from an empty line.
-/

namespace SceneExchange.Text.Rows

inductive Mode where
  | rowStart | fieldStart | plain | quoted | quoteSeen
  deriving Repr, DecidableEq

structure State where
  mode : Mode := .rowStart
  fields : List String := []
  field : List Char := []

namespace State

def save (s : State) : List String := String.ofList s.field.reverse :: s.fields

def put (s : State) (mode : Mode) (c : Char) : State :=
  { s with mode := mode, field := c :: s.field }

def nextField (s : State) : State := { mode := .fieldStart, fields := s.save }

def step (s : State) (c : Char) : State :=
  let isQuote := c == doubleQuote
  match s.mode with
  | .rowStart | .fieldStart =>
    if isQuote then { s with mode := .quoted } else if c == ',' then s.nextField else s.put .plain c
  | .plain => if c == ',' then s.nextField else s.put .plain c
  | .quoted => if isQuote then { s with mode := .quoteSeen } else s.put .quoted c
  | .quoteSeen =>
    if isQuote then s.put .quoted c else if c == ',' then s.nextField else s.put .plain c

def row (s : State) : List String :=
  match s.mode with
  | .rowStart => []
  | _ => s.save.reverse

end State

def readFrom : State → List Char → List (List String)
  | s, [] =>
    match s.mode with
    | .rowStart => []
    | _ => [s.row]
  | s, '\r' :: '\n' :: rest =>
    if s.mode = .quoted then readFrom ((s.step '\r').step '\n') rest
    else s.row :: readFrom {} rest
  | s, c :: rest =>
    if (c == '\n' || c == '\r') && s.mode ≠ .quoted then s.row :: readFrom {} rest
    else readFrom (s.step c) rest

def read (text : String) : List (List String) := readFrom {} text.toList

end SceneExchange.Text.Rows
