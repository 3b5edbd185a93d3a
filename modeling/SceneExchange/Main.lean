import SceneExchange.Batch.Installation

/-!
# The command line

Prints the location of an installed application, from a file that lists applications.
-/

namespace SceneExchange.Batch

def filesFor : Command → IO Files
  | .find file _ => do
    try
      let bytes ← IO.FS.readBinFile file
      pure (({} : Files).put file bytes.toList)
    catch _ => pure {}
  | _ => pure {}

def exitCode (f : Fault) : UInt32 :=
  match f.kind with
  | .exit => (f.message.toNat?.getD 1).toUInt32
  | _ => 1

end SceneExchange.Batch

open SceneExchange Batch in
def main (words : List String) : IO UInt32 := do
  let files ← filesFor (Command.ofWords words)
  let (lines, result) := runCommand "scene-exchange" words files
  lines.forM IO.println
  match result with
  | .ok () => pure 0
  | .error f => do
    if f.kind ≠ .exit then IO.eprintln f.message
    pure (exitCode f)
