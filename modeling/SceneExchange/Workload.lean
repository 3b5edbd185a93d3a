import SceneExchange.Export
import SceneExchange.Import
import SceneExchange.Menu
import SceneExchange.Workload.Materials
import SceneExchange.Workload.Objects

/-!
# Workloads

A workload is a task of a chosen size, put together by rule, on which a conversion is run. Some
workloads need a folder; its files are gone before the run unless the folder is kept.
-/

namespace SceneExchange

inductive Workload where
  | registration | animations | textured | converted | exported | colors | imported | meshes
  | elements | procedural | actors | names | textures | saved
  deriving Repr, DecidableEq

namespace Workload

def all : List Workload :=
  [registration, animations, textured, converted, exported, colors, imported, meshes, elements,
    procedural, actors, names, textures, saved]

def name : Workload → String
  | registration => "bench_addon_registration"
  | animations => "bench_collect_anims"
  | textured => "bench_collect_materials"
  | converted => "bench_converter_materials"
  | exported => "bench_export_scene"
  | colors => "bench_import_parsers"
  | imported => "bench_import_scene"
  | meshes => "bench_mesh_write"
  | elements => "bench_node_xml"
  | procedural => "bench_procedural_materials"
  | actors => "bench_render_tree"
  | names => "bench_sanitize_names"
  | textures => "bench_save_textures"
  | saved => "bench_save_wrapper"

def ofName? (s : String) : Option Workload := all.find? (·.name == s)

def parameter : Workload → String
  | registration => "n_iters"
  | animations => "n_frames"
  | textured | converted | procedural => "n_mats"
  | exported | saved => "n_objs"
  | colors => "n_colors"
  | imported => "n_actors"
  | meshes => "n_meshes"
  | elements => "n_nodes"
  | actors => "n_children"
  | names => "n_names"
  | textures => "n_tex"

def sizes : Workload → List Nat
  | registration => [60, 300, 900]
  | animations => [10, 40, 120]
  | textured => [4, 12, 36]
  | converted => [6, 16, 40]
  | exported => [10, 25, 80]
  | colors => [500, 2000, 8000]
  | imported => [8, 30, 100]
  | meshes => [8, 30, 100]
  | elements => [60, 300, 1200]
  | procedural => [9, 18, 45]
  | actors => [80, 400, 1600]
  | names => [800, 4000, 16000]
  | textures => [10, 30, 90]
  | saved => [4, 12, 36]

def usualSize (w : Workload) : Nat := w.sizes[1]?.getD 1

structure Setting where
  folder : String
  kept : Bool
  imageLabel : String
  host : Export.Host

structure Report where
  result : Except Fault Datum
  log : List LogLine := []
  printed : List String := []

namespace Report

def ofExcept (r : Except Fault Datum) : Report := { result := r }

end Report

/-! ## Materials -/

def materialTexts (materials : List (Option Material.Definition)) (trees : List Graph.Tree)
    (twoSided : Bool) : Report :=
  let list := materials.map fun m => (m, false)
  let (r, s) := (Material.documents list twoSided).run ⟨trees.toArray⟩ |>.run.run
    { images := images }
  { result := r.map fun docs => .list (docs.map fun d => .text d.element.text)
    log := s.log.toList }

def familyTexts (family : Nat → Shaded) (size : Nat) (rest : List (Option Material.Definition))
    (twoSided : Bool) : Report :=
  let shaded := (List.range size).map family
  materialTexts (shaded.map (fun s => some s.definition) ++ rest) (shaded.map (·.tree)) twoSided

/-! ## Reading -/

def colorText (thousandths : Nat) : String :=
  let red := Number.shortest (Float.ofScientific thousandths true 3)
  "(R=" ++ red ++ ",G=0.0,B=0.0,A=1.0)"

def propertyValue (type value : String) : Except Fault Datum :=
  let document :=
    "<KeyValueProperty name=\"p\" type=\"" ++ type ++ "\" val=\"" ++ value ++ "\"/>"
  let action : Import.Importing Datum := do
    let root ← Import.Importing.next
    let m ← Import.Importing.property (.ofTag "" "") root.tag
    pure (.text ((m.text? "p").getD ""))
  (Import.runOn action {} "" document {}).1

def readColors (size : Nat) : Except Fault Datum := do
  let colors ← (List.range size).mapM fun i => do
    pure (Datum.tuple ((← Color.read (colorText i)).toList.map .real))
  let values ← Import.Importing.propertyTypes.mapM fun type => propertyValue type "x"
  pure (.list (colors ++ values))

def finished : Datum := .list [.text "FINISHED"]

def importDocument (s : Setting) (actors : Nat) (level : Option String)
    (answer : Stage → Datum) : Report :=
  let files := if s.kept then Document.files s.folder actors else {}
  let o := Import.run files (Path.join s.folder Document.fileName) level
    { imageLabel := some s.imageLabel }
  { result := o.result.map fun _ => answer o.state.stage
    log := o.state.log.toList
    printed := o.state.printed.toList }

def importScene (s : Setting) (actors : Nat) : Report :=
  importDocument s actors (some "DEBUG") fun stage => .list [finished, .int stage.objects.size]

def register (s : Setting) : Nat → Report
  | 0 => .ofExcept (.ok (.list []))
  | rounds + 1 =>
    let first := importDocument s 1 none fun _ => finished
    match first.result with
    | .error _ => first
    | .ok d =>
      let rest := register s rounds
      { result := rest.result.map fun
          | .list ds => .list (d :: ds)
          | other => other
        log := first.log ++ rest.log
        printed := first.printed ++ rest.printed }

/-! ## Writing -/

def roughName (i : Nat) : String :=
  " My Mesh (v2).part[3] a?<>;:|!@# name_" ++ toString i

def legalNames (size : Nat) : Except Fault Datum := do
  pure (.list ((← (List.range size).mapM fun i => Name.legal (roughName i)).map .text))

def writeMeshes (s : Setting) (size : Nat) : Except Fault Datum := do
  let start := ({} : Files).addFolder (Path.join s.folder assetFolder)
  let (_, texts) ← (List.range size).foldlM (fun (files, texts) i => do
    let (files, e) ← (← meshAsset i).save files s.folder assetFolder
    pure (files, texts ++ [Datum.text e.text])) (start, [])
  pure (.list texts)

def saveTextures (s : Setting) (size : Nat) : Except Fault Datum :=
  let source := Path.join s.folder "source.png"
  let shelf : Texture.Shelf := {
    files := (({} : Files).addFolder (Path.join s.folder assetFolder)).put source largePicture
    images := ((List.range size).map (textureImage source)).toArray
    rendering := some (Bytes.ofText "saved") }
  let action : Texture.Saving (List Datum) := (List.range size).mapM fun i => do
    pure (.text (← Texture.save (textureEntry i) s.folder assetFolder false).text)
  (action.run shelf).1.map .list

def wideElement (size : Nat) : Markup.Element :=
  .mk "Root" [] ((List.range size).map fun (i : Nat) =>
    .element (.leaf "Child" [("index", .int i), ("name", .text ("n" ++ toString i))]))

def exportRow (s : Setting) (size : Nat) (options : Export.Options) (kept : Bool)
    (answer : String → Export.Outcome → Except Fault Datum) : Report :=
  let file := Path.join s.folder "out.udatasmith"
  let files : Files := if kept then ({} : Files).addFolder s.folder else {}
  let o := Export.run (rowScene size) options s.host file files false
  { result := o.result.bind fun _ => answer file o
    log := o.log
    printed := o.printed }

def exportScene (s : Setting) (size : Nat) : Report :=
  exportRow s size {} true fun file o => do pure (.int (← o.files.read file).length)

def saveScene (s : Setting) (size : Nat) : Report :=
  exportRow s size { logging := true, telemetry := true } s.kept fun _ _ => .ok finished

def playScene (frames : Nat) : Report :=
  let (r, p) := (Scene.Playing.animations true false []).run { scene := stillScene frames }
  { result := r.map fun o => .list (o.toList.map .text), log := p.log.toList }

/-! ## Running -/

def run (s : Setting) (size : Nat) : Workload → Report
  | registration => register s size
  | animations => playScene size
  | textured => familyTexts Workload.texturedMaterial size [none, some flat] true
  | converted => familyTexts Workload.convertedMaterial size [] true
  | exported => exportScene s size
  | colors => .ofExcept (readColors size)
  | imported => importScene s size
  | meshes => .ofExcept (writeMeshes s size)
  | elements => .ofExcept (.ok (.text (wideElement size).text))
  | procedural => familyTexts Workload.proceduralMaterial size [] false
  | actors => .ofExcept (.ok (.text (Scene.Actor.render "\t" (rootActor size))))
  | names => .ofExcept (legalNames size)
  | textures => .ofExcept (saveTextures s size)
  | saved => saveScene s size

def runAll (s : Setting) : List Workload → Report
  | [] => .ofExcept (.ok .null)
  | w :: rest =>
    let first := w.run s w.usualSize
    match first.result with
    | .error _ => { first with log := [] }
    | .ok _ =>
      let later := runAll s rest
      { later with printed := first.printed ++ later.printed }

end Workload

end SceneExchange
