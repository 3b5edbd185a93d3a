import SceneExchange.Import.Actors
import SceneExchange.Import.Materials
import SceneExchange.Import.Meshes
import SceneExchange.Import.Objects
import SceneExchange.Import.Shaders
import SceneExchange.Import.Textures

/-!
# Importing a scene file

A scene file is read element by element. Then the textures are loaded, and the materials, the
materials of meshes and the objects are made, in this order.
-/

namespace SceneExchange.Import

open Markup (Tag)

namespace Importing

def rootPart (tag : Tag) : Importing Unit := do
  modify fun s => { s with reached := true }
  if isActor tag.name then
    let a ← actor tag
    onParts fun p => { p with actors := p.actors.push a }
  else match tag.name with
    | "StaticMesh" => staticMesh tag
    | "Texture" => texture tag
    | "MasterMaterial" => masterMaterial tag
    | "UEPbrMaterial" => shaderMaterial tag
    | "Material" => plainMaterial tag
    | _ => ignore tag

def readParts : Importing Unit := do
  let root ← next
  expect (root.tag.name == "DatasmithUnrealScene")
  expect (!root.ends)
  children root.tag () fun _ child => rootPart child

def makeParts : Importing Unit := do
  (← get).parts.textureFiles.values.forM loadTexture
  (← get).parts.materials.entries.forM fun (key, m) => linkMaterial key m
  (← get).parts.meshes.values.forM linkMesh
  linkActors none (← get).parts.actors.toList

def scene : Importing Unit := do
  readParts
  makeParts

end Importing

def levelNamed? : String → Option (Option LogLevel)
  | "NEVER" => some none
  | "ERROR" => some (some .error)
  | "WARN" => some (some .warning)
  | "INFO" => some (some .info)
  | "DEBUG" => some (some .debug)
  | _ => none

structure Outcome where
  result : Except Fault Unit
  state : State

namespace Outcome

def ofFault (f : Fault) : Outcome := ⟨.error f, {}⟩

end Outcome

def runOn {α : Type} (action : Importing α) (files : Files) (folder text : String) (start : Stage) :
    Except Fault α × State :=
  let (events, fault) := Markup.read text
  (action.run ⟨files, folder⟩).run
    { marks := events.filterMap Mark.ofEvent?, ending := fault, stage := start }

def textOf (bytes : List UInt8) : Except Fault String :=
  match String.fromUTF8? ⟨bytes.toArray⟩ with
  | some s => .ok s
  | none => .error (.undecodable "invalid utf-8")

def report (s : State) (f : Fault) : State :=
  { s with log := (s.log.push ⟨.error, "Datasmith export error:"⟩).push ⟨.error, f.message⟩ }

def openLog (files : Files) (file : String) : Except Fault Unit :=
  (files.write (file ++ ".log") []).map fun _ => ()

def run (files : Files) (file : String) (level : Option String) (start : Stage) : Outcome :=
  match level.map levelNamed?, if level.isSome then openLog files file else .ok () with
  | _, .error f => .ofFault f
  | some none, _ => .ofFault (.missingKey (.text (level.getD "")))
  | chosen, .ok () =>
    let (result, s) := match files.read file >>= textOf with
      | .ok text => runOn Importing.scene files (Path.folder file) text start
      | .error f => (.error f, { stage := start })
    let s := match result with
      | .ok () => s
      | .error f => report s f
    let log := match chosen with
      | some (some none) => #[]
      | some (some (some least)) => (logFrom least s.log.toList).toArray
      | _ => s.log
    ⟨result, { s with log := log }⟩

end SceneExchange.Import
