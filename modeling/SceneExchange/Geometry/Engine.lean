import SceneExchange.Geometry.Placement

/-!
# Axes and units of the engine

The engine counts in centimetres and its second axis points the other way. Cameras and lights look
along another axis there, which `forward` accounts for.
-/

namespace SceneExchange.Geometry

open Scalar

variable {α : Type} [Scalar α]

def engineAxes : Matrix α := .diagonal (ratio 100 1) (ratio (-100) 1) (ratio 100 1) one

def forward : Matrix α :=
  ⟨⟨zero, one, zero, zero⟩, ⟨zero, zero, ratio (-1) 1, zero⟩, ⟨ratio (-1) 1, zero, zero, zero⟩,
    ⟨zero, zero, zero, one⟩⟩

def toEngine (m : Matrix α) : Except Fault (Matrix α) := do
  pure (engineAxes * m * (← Matrix.inverse engineAxes))

def toEngineView (looks : Bool) (m : Matrix α) : Except Fault (Matrix α) := do
  let m ← toEngine m
  pure (if looks then m * forward else m)

def editorAxes : Matrix α := .diagonal (ratio 1 100) (ratio (-1) 100) (ratio 1 100) one

def toEditorView (looks : Bool) (m : Matrix α) : Except Fault (Matrix α) := do
  let m := editorAxes * m * (← Matrix.inverse editorAxes)
  if looks then pure (m * (← Matrix.inverse forward)) else pure m

def relativeTo (parent : Option (Matrix α)) (m : Matrix α) : Except Fault (Matrix α) :=
  match parent with
  | none => .ok m
  | some p => do pure ((← p.inverse) * m)

end SceneExchange.Geometry
