import SceneExchange.Material.Session
import SceneExchange.Text.Template

/-!
# Reports of a material

A report is a warning or an error with a template for its text. A report that is given once is
known by its template, whatever fills it.
-/

namespace SceneExchange.Material.Compile

def reportText (template : String) (info : Datum) : Except Fault String :=
  if info.holds then Text.Template.fill template info else .ok template

def warn (template : String) (info : Datum) (once : Bool) : Compile Unit := do
  let s ← get
  if once && s.reportedWarnings.contains template then pure ()
  else
    if once then set { s with reportedWarnings := template :: s.reportedWarnings }
    write .warning (← lift (reportText template info))

def error (template : String) (info : Datum) (once : Bool) : Compile Unit := do
  let s ← get
  if once && s.reportedErrors.contains template then pure ()
  else
    if once then set { s with reportedErrors := template :: s.reportedErrors }
    write .error (← lift (reportText template info))

def addInput (place : Int) (name : String) (feed : Datum) (output : Datum) : Compile Nat := do
  let s ← get
  let size := s.expressions.size
  let i := if place < 0 then place + size else place
  if i < 0 || size ≤ i.toNat then fail (.sequenceOutOfRange "list")
  else
    let e := s.expressions[i.toNat]?.getD default
    match feed with
    | .null => pure e.parts.length
    | _ => do
      let source ← sourceOf (write .error) feed output
      let e := { e with parts := e.parts ++ [.input name source] }
      modify fun s => { s with expressions := s.expressions.setIfInBounds i.toNat e }
      pure e.parts.length

end SceneExchange.Material.Compile
