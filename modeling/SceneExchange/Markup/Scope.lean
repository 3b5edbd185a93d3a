import SceneExchange.Markup.Token
import SceneExchange.Table

/-!
# Namespaces of names

A name in two parts stands for its second part in the namespace that the first part is bound to.
An element without a first part is in the default namespace, if there is one.
-/

namespace SceneExchange.Markup

abbrev Scope := Table (List Char) (List Char)

def splitName (name : List Char) : Option (List Char) × List Char :=
  if name.contains ':' then
    (some (name.takeWhile (· ≠ ':')), (name.dropWhile (· ≠ ':')).drop 1)
  else (none, name)

def qualified (space name : List Char) : List Char := ['\x7b'] ++ space ++ ['\x7d'] ++ name

namespace Scope

def expandPair? (s : Scope) (first second : List Char) : Option (List Char) :=
  match s.get? first with
  | some space => some (qualified space second)
  | none => if first == ['x', 'm', 'l'] then some (first ++ ':' :: second) else none

def expandElement? (s : Scope) (name : List Char) : Option (List Char) :=
  match splitName name with
  | (some first, second) => s.expandPair? first second
  | (none, name) =>
    match s.get? [] with
    | some space => some (if space.isEmpty then name else qualified space name)
    | none => some name

def expandAttribute? (s : Scope) (name : List Char) : Option (List Char) :=
  match splitName name with
  | (some first, second) => s.expandPair? first second
  | (none, name) => some name

end Scope

def namespaceWord : List Char := ['x', 'm', 'l', 'n', 's']

def boundPart? (name : List Char) : Option (List Char) :=
  match splitName name with
  | (some first, second) => if first == namespaceWord then some second else none
  | (none, name) => if name == namespaceWord then some [] else none

def resolveValue (tag : List Char) : List Piece → Except Trouble (List Char)
  | [] => .ok []
  | .char c :: rest => do pure (c :: (← resolveValue tag rest))
  | .reference (.number (some c)) _ :: rest => do pure (c :: (← resolveValue tag rest))
  | .reference (.number none) start :: _ => .error ⟨.invalidReference, start⟩
  | .reference (.entity name) _ :: rest =>
    match knownEntity? name with
    | some c => do pure (c :: (← resolveValue tag rest))
    | none => .error ⟨.undefinedEntity, tag⟩

structure Resolved where
  seen : List (List Char)
  attributes : List (List Char × List Char)
  scope : Scope

def resolveAttribute (tag : List Char) (r : Resolved) (a : RawAttribute) :
    Except Trouble Resolved := do
  if r.seen.contains a.name then throw ⟨.duplicateAttribute, a.start⟩
  let value ← resolveValue tag a.value
  match boundPart? a.name with
  | none =>
    pure { r with seen := a.name :: r.seen, attributes := r.attributes ++ [(a.name, value)] }
  | some part =>
    if part == namespaceWord then throw ⟨.reservedPrefix, tag⟩
    if !part.isEmpty && value.isEmpty then throw ⟨.undeclaredPrefix, tag⟩
    pure { r with seen := a.name :: r.seen, scope := r.scope.insert part value }

def expandAttributes (tag : List Char) (scope : Scope) :
    List (List Char × List Char) → Except Trouble (List (String × String))
  | [] => .ok []
  | (name, value) :: rest => do
    let some name := scope.expandAttribute? name | throw ⟨.unboundPrefix, tag⟩
    let others ← expandAttributes tag scope rest
    let name := String.ofList name
    if others.any (·.1 == name) then throw ⟨.duplicateAttribute, tag⟩
    pure ((name, String.ofList value) :: others)

def openTag (scope : Scope) (tag name : List Char) (attributes : List RawAttribute) :
    Except Trouble (String × List (String × String) × Scope) := do
  let r ← attributes.foldlM (resolveAttribute tag) ⟨[], [], scope⟩
  let attributes ← expandAttributes tag r.scope r.attributes
  match r.scope.expandElement? name with
  | some name => pure (String.ofList name, attributes, r.scope)
  | none => throw ⟨.unboundPrefix, tag⟩

end SceneExchange.Markup
