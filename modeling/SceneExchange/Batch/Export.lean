import SceneExchange.Calendar
import SceneExchange.Files
import SceneExchange.Text.Difference
import SceneExchange.Text.Lines

/-!
# Exporting from a command line

The words of the command line choose the file to write and some settings. A file that is already
there is kept under a name with the date of its last change, and on request the differences between
it and the new file are written beside it.
-/

namespace SceneExchange.Batch

structure Settings where
  animations : Bool
  logging : Bool
  profiling : Bool
  oldIterator : Bool
  deriving Repr, DecidableEq

structure Request where
  file : String
  settings : Settings
  deriving Repr, DecidableEq

def Settings.entries (s : Settings) : List (String × Bool) :=
  [("use_gamma_hack", false), ("apply_modifiers", true), ("compatibility_mode", false),
    ("skip_textures", false), ("export_metadata", false), ("export_animations", s.animations),
    ("use_logging", s.logging), ("use_profiling", s.profiling), ("use_old_iterator", s.oldIterator)]

structure Shelf where
  files : Files := {}
  times : Table String Int := .empty
  deriving Inhabited

namespace Shelf

def put (s : Shelf) (path : String) (bytes : List UInt8) (time : Int) : Shelf :=
  ⟨s.files.put path bytes, s.times.insert path time⟩

def time? (s : Shelf) (path : String) : Option Int :=
  match s.files.read path, s.files.resolve? path with
  | .ok _, some place => some ((s.times.get? place).getD 0)
  | _, _ => none

def lines (s : Shelf) (path : String) : Except Fault (List String) := do
  match String.fromUTF8? ⟨(← s.files.read path).toArray⟩ with
  | some text => pure (Text.fileLines text)
  | none => throw (.undecodable "invalid utf-8")

end Shelf

structure State where
  shelf : Shelf := {}
  requests : List Request := []
  printed : List String := []
  deriving Inhabited

abbrev Exporting := ExceptT Fault (StateM State)

namespace Exporting

def lift {α : Type} : Except Fault α → Exporting α
  | .ok a => pure a
  | .error f => throw f

def onFiles (f : Files → Except Fault Files) : Exporting Unit := do
  let s ← get
  let files ← lift (f s.shelf.files)
  set { s with shelf := { s.shelf with files := files } }

def outputWord (words : List String) : Exporting (Option String) :=
  match words.dropWhile (· ≠ "--output") with
  | [] => pure none
  | [_] => throw (.sequenceOutOfRange "list")
  | _ :: word :: _ => pure (some word)

def defaultTarget (scene : String) : String :=
  let path := Path.normal scene
  Path.folder path ++ "/" ++ Path.withoutExtension (Path.name path) ++ ".udatasmith"

def beside (target ending : String) : String :=
  Path.folder target ++ "/" ++ Path.withoutExtension (Path.name target) ++ ending

def backUp (target : String) : Exporting (Option String) := do
  match (← get).shelf.time? target with
  | none => pure none
  | some time => do
    let backup := beside target ("_" ++ Calendar.stamp time ++ ".udatasmith")
    onFiles (·.copy target backup)
    pure (some backup)

def writeDifference (backup target : String) : Exporting Unit := do
  let old ← lift ((← get).shelf.lines backup)
  let new ← lift ((← get).shelf.lines target)
  let text := String.join (Text.Difference.unified backup target old new)
  let time := ((← get).shelf.time? target).getD 0
  let dated := beside target ("_" ++ Calendar.stamp time ++ ".diff")
  onFiles (·.write dated text.toUTF8.toList)
  onFiles (·.copy dated (beside target ".diff"))

def commandLine (words : List String) (scene : String) (perform : Shelf → Shelf) : Exporting Unit := do
  let line := "args: " ++ (Datum.list (words.map .text)).literal
  modify fun s => { s with printed := s.printed ++ Text.printedLines line }
  let target ← match ← outputWord words with
    | some word => pure (if word.isEmpty then defaultTarget scene else word)
    | none => pure (defaultTarget scene)
  let backup ← backUp target
  let settings : Settings :=
    ⟨words.contains "--animations", words.contains "--log", words.contains "--profiling",
      words.contains "--old"⟩
  modify fun s =>
    { s with requests := s.requests ++ [⟨target, settings⟩], shelf := perform s.shelf }
  match backup with
  | some backup => if words.contains "--diff" then writeDifference backup target
  | none => pure ()

end Exporting

end SceneExchange.Batch
