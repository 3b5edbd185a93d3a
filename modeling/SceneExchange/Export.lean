import SceneExchange.Scene.Animation
import SceneExchange.Scene.Environment
import SceneExchange.Scene.Walk
import SceneExchange.Texture.Save

/-!
# Exporting a scene

An export walks the scene, compiles its materials, and writes the scene document with a folder of
assets beside it: the animation, the meshes and the textures. What was written before a fault
stays.
-/

namespace SceneExchange.Export

open Markup Scene

structure Host where
  user : String
  system : String
  version : String
  remains : Scene.Remains := default
  deriving Inhabited

structure Options where
  selectedOnly : Bool := false
  instancedMeshes : Bool := true
  applyModifiers : Bool := true
  animations : Bool := false
  metadata : Bool := false
  skipTextures : Bool := false
  compatibility : Bool := false
  gammaHack : Bool := false
  oldIterator : Bool := false
  alwaysTwoSided : Bool := true
  logging : Bool := false
  profiling : Bool := false
  telemetry : Bool := false
  deriving Inhabited

def version : String := "1.1.0"

def textElement (name text : String) : Content := .element (.mk name [] [.datum (.text text)])

def headerContents (h : Host) : List Content := [
  textElement "Version" version,
  textElement "SDKVersion" "4.24E0",
  textElement "Host" "Blender",
  .element (.leaf "Application" [("Vendor", .text "Blender Foundation"),
    ("ProductName", .text "Blender"), ("ProductVersion", .text h.version)]),
  .element (.leaf "User" [("ID", .text h.user), ("OS", .text h.system)])]

def rootTag : String := "DatasmithUnrealScene"

def header (h : Host) : Element := .mk rootTag [] (headerContents h)

structure State where
  files : Files
  log : Array LogLine := #[]
  calls : Array Int := #[]
  deriving Inhabited

abbrev Exporting := ExceptT Fault (StateM State)

namespace Exporting

def lift {α : Type} (r : Except Fault α) : Exporting α :=
  match r with
  | .ok a => pure a
  | .error f => throw f

def addLog (lines : Array LogLine) : Exporting Unit :=
  modify fun s => { s with log := s.log ++ lines }

def write (path : String) (bytes : List UInt8) : Exporting Unit := do
  let files ← lift ((← get).files.write path bytes)
  modify fun s => { s with files := files }

def walk (scene : Scene) (o : Options) : Exporting Walk := do
  let (r, w) := (walkAll o.instancedMeshes o.selectedOnly).run scene |>.run.run {}
  addLog w.log
  lift r
  pure w

def animate (scene : Scene) (o : Options) (h : Host) : Exporting (Option String) :=
  if o.animations then do
    let (r, p) := (Playing.animations (!o.oldIterator) o.instancedMeshes []).run
      { scene := scene, remains := h.remains }
    modify fun s => { s with calls := s.calls ++ p.calls }
    addLog p.log
    lift r
  else pure none

def distinct (materials : List (Option Nat)) : List (Option Nat) :=
  materials.foldl (fun seen m => if seen.contains m then seen else seen ++ [m]) []

def compile (scene : Scene) (o : Options) (materials : List (Option Nat)) :
    Exporting (List Element × List Element × Material.Session) := do
  let list := (distinct materials).map fun m => (m.bind (scene.materials[·]?), true)
  let action : Material.Compile (List Element × List Element) := do
    let environment ← environment scene.world
    let documents ← Material.documents list o.alwaysTwoSided
    pure (environment, documents.map (·.element))
  let start : Material.Session := { images := scene.images, hostImages := scene.hostImages }
  let (r, session) := action.run scene.forest |>.run.run start
  addLog session.log
  let (environment, documents) ← lift r
  pure (environment, documents, session)

def makeFolder (path : String) : Exporting Unit := do
  let files ← lift ((← get).files.makeFolder path)
  modify fun s => { s with files := files }

def saveAnimation (base folder : String) : Option String → Exporting (List Element)
  | none => pure []
  | some text => do
    let file := "anim_new.json"
    write (Path.join (Path.join base folder) file) (Bytes.ofText text)
    pure [.mk "LevelSequence" [("name", .text "anim_new")]
      [.element (.leaf "File" [("path", .text (folder ++ "/" ++ file))])]]

def saveMeshes (base folder : String) (assets : List Mesh.Asset) : Exporting (List Element) :=
  assets.mapM fun a => do
    let (files, e) ← lift (a.save (← get).files base folder)
    modify fun s => { s with files := files }
    pure e

def saveTextures (base folder : String) (skip : Bool) (session : Material.Session) :
    Exporting (List Element) := do
  let action : Texture.Saving (List Element) :=
    session.textures.values.mapM fun entry => Texture.save entry base folder skip
  let (r, shelf) := action.run { files := (← get).files, images := session.images }
  modify fun s => { s with files := shelf.files }
  lift r

def root (h : Host) (actors : String) (animations environment meshes documents textures : List Element) : Element :=
  .mk rootTag [] (headerContents h ++ [.datum (.text "\n")] ++ animations.map Content.element ++
    (if actors.isEmpty then [] else [.datum (.text actors)]) ++ environment.map Content.element ++
    meshes.map Content.element ++ documents.map Content.element ++ textures.map Content.element)

def assetFolder (path : String) : String := Path.name path ++ "_Assets"

def documentPath (path : String) : String := Path.join (Path.folder path) (Path.name path ++ ".udatasmith")

def collectAndSave (scene : Scene) (o : Options) (h : Host) (path : String) : Exporting Nat := do
  let w ← walk scene o
  let animation ← animate scene o h
  let (environment, documents, session) ← compile scene o w.materials.toList
  let base := Path.folder path
  let folder := assetFolder path
  makeFolder (Path.join base folder)
  let animations ← saveAnimation base folder animation
  let meshes ← saveMeshes base folder w.meshes.values
  let textures ← saveTextures base folder o.skipTextures session
  let text := (root h w.text animations environment meshes documents textures).document
  write (documentPath path) (Bytes.ofText text)
  pure text.length

def save (scene : Scene) (o : Options) (h : Host) (file : String) : Exporting Nat := do
  let base := Path.withoutExtension file
  if o.logging then write (file ++ ".log") []
  let action : Exporting Nat := do
    let size ← collectAndSave scene o h base
    if o.profiling then
      addLog #[⟨.warning, "writing profile to path: " ++ base ++ ".prof"⟩]
    pure size
  tryCatch action fun f => do
    addLog #[⟨.error, "Datasmith export error:"⟩, ⟨.error, f.message⟩]
    throw f

end Exporting

structure Post where
  url : String
  fields : List (String × Datum)
  timeout : Int
  deriving Inhabited

def telemetry (o : Options) (size : Nat) : Post where
  url := "http://telemetry.botero.tech:8080/bf_telemetry.lua"
  fields := [
    ("summary", .text ("Size: " ++ toString size ++ "\n")),
    ("status", .text "SUCCESS"),
    ("log", .text "placeholder log"),
    ("version", .text version),
    ("export_selected", .flag o.selectedOnly),
    ("use_instanced_meshes", .flag o.instancedMeshes),
    ("apply_modifiers", .flag o.applyModifiers),
    ("export_animations", .flag o.animations),
    ("export_metadata", .flag o.metadata),
    ("skip_textures", .flag o.skipTextures),
    ("compatibility_mode", .flag o.compatibility),
    ("use_gamma_hack", .flag o.gammaHack),
    ("use_old_iterator", .flag o.oldIterator),
    ("use_logging", .flag o.logging),
    ("use_profiling", .flag o.profiling)]
  timeout := 1

structure Outcome where
  result : Except Fault Unit
  files : Files
  calls : List Int
  log : List LogLine
  printed : List String
  posted : List Post

def run (scene : Scene) (o : Options) (h : Host) (file : String) (files : Files)
    (reachable : Bool) : Outcome :=
  let (r, s) := (Exporting.save scene o h file).run { files := files }
  let log := s.log.toList
  match r with
  | .error f => ⟨.error f, s.files, s.calls.toList, log, [], []⟩
  | .ok size =>
    if o.telemetry then
      let warning := if reachable then [] else [⟨.warning, "unable to reach telemetry server"⟩]
      ⟨.ok (), s.files, s.calls.toList, log ++ warning,
        ["sending telemetry data", "version string: " ++ version], [telemetry o size]⟩
    else ⟨.ok (), s.files, s.calls.toList, log, [], []⟩

end SceneExchange.Export
