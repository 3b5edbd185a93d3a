import SceneExchange.Fault
import SceneExchange.Path
import SceneExchange.Table

/-!
# Files and folders

A store of files by path. A file can be written where its folder exists.
-/

namespace SceneExchange

structure Files where
  contents : Table String (List UInt8) := .empty
  folders : List String := []
  deriving Inhabited

namespace Files

def isFolder (f : Files) (path : String) : Bool := f.folders.contains path

def blocked (f : Files) (path place : String) : Fault :=
  if f.contents.contains place then .notFolder path else .noSuchFile path

def follow (f : Files) (path : String) : (here : List String) → List String →
    Except Fault (List String)
  | here, [] => .ok here
  | here, part :: rest =>
    let place := "/".intercalate here.reverse
    if part == "" || part == "." then follow f path here rest
    else if !here.isEmpty && !f.isFolder place then .error (f.blocked path place)
    else if part == ".." then follow f path (here.drop 1) rest
    else follow f path (part :: here) rest

def resolve (f : Files) (path : String) : Except Fault String := do
  pure ("/".intercalate (← f.follow path [] (Path.parts path)).reverse)

def resolve? (f : Files) (path : String) : Option String := (f.resolve path).toOption

def outward (path : String) : List String :=
  let parts := Path.parts path
  (List.range parts.length).map fun n => "/".intercalate (parts.take (n + 1))

def addFolder (f : Files) (path : String) : Files :=
  let add (fs : List String) (p : String) : List String :=
    if fs.contains p then fs else fs ++ [p]
  { f with folders := (outward path).foldl add f.folders }

def makeFolder (f : Files) (path : String) : Except Fault Files :=
  if f.contents.contains path then .ok f
  else if (outward path).any f.contents.contains then .error (.notFolder path)
  else .ok (f.addFolder path)

def put (f : Files) (path : String) (bytes : List UInt8) : Files :=
  let f := f.addFolder (Path.folder path)
  { f with contents := f.contents.insert path bytes }

def exists? (f : Files) (path : String) : Bool :=
  match f.resolve? path with
  | some p => f.contents.contains p || f.isFolder p
  | none => false

def read (f : Files) (path : String) : Except Fault (List UInt8) := do
  let p ← f.resolve path
  if f.isFolder p then throw (.isFolder path)
  else match f.contents.get? p with
    | some bytes => pure bytes
    | none => throw (.noSuchFile path)

def write (f : Files) (path : String) (bytes : List UInt8) : Except Fault Files := do
  let p ← f.resolve path
  if f.isFolder p then throw (.isFolder path)
  else if !f.isFolder (Path.folder p) then throw (.noSuchFile path)
  else pure { f with contents := f.contents.insert p bytes }

def copy (f : Files) (source target : String) : Except Fault Files := do
  if (f.exists? source) && f.resolve? source == f.resolve? target then
    throw (.raised "SameFileError"
      (Text.quoted source ++ " and " ++ Text.quoted target ++ " are the same file"))
  f.write target (← f.read source)

end Files

end SceneExchange
