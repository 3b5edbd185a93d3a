import SceneExchange.Fault

/-!
# Sockets of shader nodes
-/

namespace SceneExchange.Graph

inductive SocketKind where
  | value | color | vector | shader
  | other (name : String)
  deriving Repr, DecidableEq, Inhabited

namespace SocketKind

def ofName : String → SocketKind
  | "VALUE" => value
  | "RGBA" => color
  | "VECTOR" => vector
  | "SHADER" => shader
  | name => other name

def name : SocketKind → String
  | value => "VALUE"
  | color => "RGBA"
  | vector => "VECTOR"
  | shader => "SHADER"
  | other name => name

end SocketKind

inductive SocketValue where
  | single (d : Datum)
  | tuple (items : List Datum)
  | vector (items : List Float)
  | euler (items : List Float)
  | array (items : List Datum)
  deriving Inhabited

namespace SocketValue

def isOwnVector : SocketValue → Bool
  | vector _ | euler _ => true
  | _ => false

def isArray : SocketValue → Bool
  | array _ => true
  | _ => false

def components : SocketValue → Except Fault (List Datum)
  | single (.text s) => .ok (s.toList.map fun c => .text (String.singleton c))
  | single d => .error (.wrongKind (Text.quoted d.kindName ++ " object is not iterable"))
  | tuple items => .ok items
  | vector items => .ok (items.map .real)
  | euler items => .ok (items.map .real)
  | array items => .ok items

def component (v : SocketValue) (i : Nat) : Except Fault Datum :=
  match v with
  | single (.text s) =>
    match s.toList[i]? with
    | some c => .ok (.text (String.singleton c))
    | none => .error (.sequenceOutOfRange "string")
  | single d => .error (.wrongKind (Text.quoted d.kindName ++ " object is not subscriptable"))
  | tuple items =>
    match items[i]? with
    | some d => .ok d
    | none => .error (.sequenceOutOfRange "tuple")
  | vector items | euler items =>
    match items[i]? with
    | some x => .ok (.real x)
    | none => .error (.sequenceOutOfRange "list")
  | array items =>
    match items[i]? with
    | some d => .ok d
    | none => .error (.sequenceOutOfRange "tuple")

end SocketValue

structure Socket where
  name : String
  kind : SocketKind
  value : SocketValue
  identifier : String
  enabled : Bool
  plainVector : Bool
  deriving Inhabited

end SceneExchange.Graph
