import SceneExchange.Fault
import SceneExchange.Path
import SceneExchange.Table
import SceneExchange.Text.Lines
import SceneExchange.Text.Rows

/-!
# Importing the scenes of a list into the engine

The list is a table whose columns `dir` and `name` say where each scene lies below the folder of the
list. Every scene is imported into a level of its own, and at the end all is saved.
-/

namespace SceneExchange.Batch

inductive EngineCall where
  | construct (file : String)
  | importInto (target handling : String)
  | destroy
  | save (maps content : Bool)
  deriving Repr, DecidableEq

structure Engine where
  missing : List String := []
  failing : List String := []

structure Progress where
  calls : List EngineCall := []
  printed : List String := []
  deriving Inhabited

abbrev Listing := ReaderT Engine (ExceptT Fault (StateM Progress))

namespace Listing

def call (c : EngineCall) : Listing Unit := modify fun p => { p with calls := p.calls ++ [c] }

def print (text : String) : Listing Unit :=
  modify fun p => { p with printed := p.printed ++ Text.printedLines text }

def importScene (file folder : String) : Listing Bool := do
  call (.construct file)
  if (← read).missing.contains file then
    print "Scene loading failed."
    return false
  let target := "/Game/" ++ folder
  call (.importInto target "NEW_LEVEL")
  if (← read).failing.contains target then
    print "Importing failed."
    return false
  call .destroy
  print "Custom import process complete!"
  return true

def column (headers : List String) (name : String) : Listing Nat :=
  match (headers.zipIdx.reverse.find? (·.1 == name)).map (·.2) with
  | some i => pure i
  | none => throw (.missingKey (.text name))

def cell (row : List String) (column : Nat) : Listing String :=
  match row[column]? with
  | some s => pure s
  | none => throw (.sequenceOutOfRange "list")

def importRow (base : String) (dirColumn nameColumn : Nat) (row : List String) : Listing Unit := do
  let folder ← cell row dirColumn
  let name ← cell row nameColumn
  let file := base ++ "/" ++ folder ++ "/" ++ name ++ ".udatasmith"
  print (name ++ " file:" ++ file)
  if !(← importScene file folder) then print ("failed loading file: " ++ file)

def importAll (path list : String) : Listing Unit := do
  match Text.Rows.read list with
  | [] => throw .endOfEvents
  | headers :: rows =>
    let dirColumn ← column headers "dir"
    let nameColumn ← column headers "name"
    rows.forM (importRow (Path.folder path) dirColumn nameColumn)
    print "loaded all scenes, now saving"
    call (.save true true)

def importList (path list : String) : Listing Unit := do
  print "Loaded Blender Datasmith Python module."
  importAll path list

end Listing

end SceneExchange.Batch
