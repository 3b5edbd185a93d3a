import SceneExchange.Files
import SceneExchange.Import.Basic
import SceneExchange.Log
import SceneExchange.Markup.Event

/-!
# Reading a scene from the events of its file

A reader of an element starts after the start of the element and has to end with its end. What was
read, made and logged before a fault is kept.
-/

namespace SceneExchange.Import

open Markup (Event Tag)

structure Mark where
  ends : Bool
  tag : Tag
  deriving Repr, DecidableEq, Inhabited

def Mark.ofEvent? : Event → Option Mark
  | .start tag => some ⟨false, tag⟩
  | .finish tag => some ⟨true, tag⟩
  | .text _ => none

structure State where
  marks : List Mark := []
  ending : Option Fault := none
  parts : Parts := {}
  reached : Bool := false
  stage : Stage := {}
  log : Array LogLine := #[]
  printed : Array String := #[]
  deriving Inhabited

structure Place where
  files : Files := {}
  folder : String := ""
  deriving Inhabited

abbrev Importing := ReaderT Place (ExceptT Fault (StateM State))

namespace Importing

def lift {α : Type} : Except Fault α → Importing α
  | .ok a => pure a
  | .error f => throw f

def write (level : LogLevel) (message : String) : Importing Unit :=
  modify fun s => { s with log := s.log.push ⟨level, message⟩ }

def print (line : String) : Importing Unit :=
  modify fun s => { s with printed := s.printed.push line }

def onParts (f : Parts → Parts) : Importing Unit := modify fun s => { s with parts := f s.parts }

def onStage (f : Stage → Stage) : Importing Unit := modify fun s => { s with stage := f s.stage }

def expect (condition : Bool) : Importing Unit :=
  if condition then pure () else throw (.violated "")

def next : Importing Mark := do
  let s ← get
  match s.marks with
  | m :: rest =>
    set { s with marks := rest }
    pure m
  | [] => throw (s.ending.getD .endOfEvents)

def close (tag : Tag) : Importing Unit := do
  let m ← next
  expect (m.tag.place == tag.place)
  expect m.ends

def attributeOf (tag : Tag) (key : String) : Importing String :=
  match tag.attribute? key with
  | some v => pure v
  | none => throw (.missingKey (.text key))

def real (text : String) : Importing Float :=
  match Number.readReal? text with
  | some x => pure x
  | none => throw (.malformedReal text)

def integer (text : String) : Importing Int :=
  match Number.readInteger? text with
  | some n => pure n
  | none => throw (.malformedInteger text)

def realAttribute (tag : Tag) (key : String) : Importing Float := do real (← attributeOf tag key)

def integerAttribute (tag : Tag) (key : String) : Importing Int := do
  integer (← attributeOf tag key)

def marksAfter? (place : Nat) : List Mark → Option (Mark × List Mark)
  | [] => none
  | m :: rest => if m.tag.place == place then some (m, rest) else marksAfter? place rest

def skip (tag : Tag) : Importing Bool := do
  let s ← get
  match marksAfter? tag.place s.marks with
  | some (m, rest) =>
    set { s with marks := rest }
    expect m.ends
    pure true
  | none =>
    set { s with marks := [] }
    match s.ending with
    | some f => throw f
    | none =>
      write .error "never got end event"
      pure false

def ignore (tag : Tag) : Importing Unit := discard (skip tag)

def foldChildren {σ : Type} (tag : Tag) (f : σ → Tag → Importing σ) : (fuel : Nat) → σ → Importing σ
  | 0, _ => throw .endOfEvents
  | fuel + 1, acc => do
    let m ← next
    if m.ends then
      expect (m.tag.place == tag.place)
      pure acc
    else foldChildren tag f fuel (← f acc m.tag)

def children {σ : Type} (tag : Tag) (init : σ) (f : σ → Tag → Importing σ) : Importing σ := do
  foldChildren tag f ((← get).marks.length + 1) init

end Importing

end SceneExchange.Import
