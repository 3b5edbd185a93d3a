/-!
# Paths

Parts of a path are divided by slashes.
-/

namespace SceneExchange.Path

def parts (path : String) : List String := (path.toList.splitOn '/').map String.ofList

def join (base path : String) : String :=
  if path.startsWith '/' then path
  else if base.isEmpty || base.endsWith '/' then base ++ path
  else base ++ "/" ++ path

def lastPart (cs : List Char) : List Char := (cs.reverse.takeWhile (· ≠ '/')).reverse

def name (path : String) : String := String.ofList (lastPart path.toList)

def folder (path : String) : String :=
  let head := (path.toList.reverse.dropWhile (· ≠ '/'))
  let trimmed := head.dropWhile (· == '/')
  String.ofList (if trimmed.isEmpty then head.reverse else trimmed.reverse)

def withoutExtension (path : String) : String :=
  let cs := path.toList
  let last := lastPart cs
  let leading := last.takeWhile (· == '.')
  let body := last.dropWhile (· == '.')
  if body.contains '.' then
    let stem := ((body.reverse.dropWhile (· ≠ '.')).drop 1).reverse
    String.ofList (cs.take (cs.length - last.length) ++ leading ++ stem)
  else path

/-- The parts of a path with every `.` left out and every `..` taking back the part in front of
it; a `..` at the root is left out, and one at the start of another path is kept. -/
def normalParts (rooted : Bool) : (done : List String) → List String → List String
  | done, [] => done.reverse
  | done, part :: rest =>
    if part == "" || part == "." then normalParts rooted done rest
    else if part ≠ ".." then normalParts rooted (part :: done) rest
    else match done with
      | [] => if rooted then normalParts rooted [] rest else normalParts rooted [part] rest
      | last :: before =>
        if last == ".." then normalParts rooted (part :: done) rest
        else normalParts rooted before rest

def normal (path : String) : String :=
  let slashes := (path.toList.takeWhile (· == '/')).length
  let root := if slashes = 0 then "" else if slashes = 2 then "//" else "/"
  let plain := root ++ "/".intercalate (normalParts (0 < slashes) [] (parts path))
  if plain.isEmpty then "." else plain

end SceneExchange.Path
