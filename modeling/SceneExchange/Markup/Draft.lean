import SceneExchange.Fault
import SceneExchange.Markup.Element

/-!
# Elements under construction

A desk holds drafts of elements by key. A draft may be a child of several others, and what is
added to it later shows in all of them: children name drafts by their place on the desk. A key
that is used again names a new draft, and those that hold the earlier one keep it.
-/

namespace SceneExchange.Markup

inductive DraftChild where
  | draft (place : Nat)
  | datum (d : Datum)
  deriving Inhabited

structure Draft where
  name : String
  attributes : Table String Datum
  children : Array DraftChild
  deriving Inhabited

structure Desk where
  drafts : Array Draft := #[]
  places : Table String Nat := .empty
  deriving Inhabited

namespace Desk

def place (d : Desk) (key : String) : Except Fault Nat :=
  match d.places.get? key with
  | some n => .ok n
  | none => .error (.missingKey (.text key))

def draft (d : Desk) (n : Nat) : Draft := d.drafts[n]?.getD default

def attributesOf (given : Datum) : Except Fault (Table String Datum) :=
  if !given.holds then .ok .empty
  else match given with
    | .dict entries => .ok (Table.ofList (entries.map fun (k, v) => (k.display, v)))
    | _ => .error (.violated "")

def start (d : Desk) (key name : String) (attributes : Datum) (children : List DraftChild) :
    Except Fault (Desk × Nat) := do
  let attributes ← attributesOf attributes
  let draft : Draft := ⟨name, attributes, children.toArray⟩
  pure (⟨d.drafts.push draft, d.places.insert key d.drafts.size⟩, children.length)

def push (d : Desk) (key : String) (child : DraftChild) : Except Fault (Desk × Nat) := do
  let n ← d.place key
  let draft := d.draft n
  let drafts := d.drafts.setIfInBounds n { draft with children := draft.children.push child }
  pure ({ d with drafts := drafts }, draft.children.size)

def set (d : Desk) (key attr : String) (value : Datum) : Except Fault (Desk × Nat) := do
  let n ← d.place key
  let draft := d.draft n
  let attributes := draft.attributes.insert attr value
  let drafts := d.drafts.setIfInBounds n { draft with attributes := attributes }
  pure ({ d with drafts := drafts }, attributes.size)

def get (d : Desk) (key attr : String) : Except Fault Datum := do
  let n ← d.place key
  match (d.draft n).attributes.get? attr with
  | some v => pure v
  | none => throw (.missingKey (.text attr))

def elementAt (d : Desk) : Nat → Nat → Except Fault Element
  | 0, _ => .error .tooDeep
  | fuel + 1, n => do
    let draft := d.draft n
    let children ← draft.children.toList.mapM fun
      | .datum v => pure (Content.datum v)
      | .draft m => do pure (Content.element (← elementAt d fuel m))
    pure (.mk draft.name draft.attributes.entries children)

def element (d : Desk) (key : String) : Except Fault Element := do
  d.elementAt (d.drafts.size + 1) (← d.place key)

end Desk

end SceneExchange.Markup
