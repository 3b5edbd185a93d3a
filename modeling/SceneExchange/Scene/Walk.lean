import SceneExchange.Mesh.Asset
import SceneExchange.Scene.Description

/-!
# Walking the instances of a scene

The walk turns every instance into an actor or into an entry of its parent's instances, and
collects the meshes and materials that they use. Actors are drafted first: an actor is found again
by its legal name, and grows as its object, its children and its instances are met.
-/

namespace SceneExchange.Scene

open SceneExchange.Geometry

structure ActorDraft where
  head : ActorHead
  children : Array Nat := #[]
  deriving Inhabited

structure Walk where
  drafts : Array ActorDraft := #[]
  named : Table String Nat := .empty
  roots : Array Nat := #[]
  meshes : Table String Mesh.Asset := .empty
  known : Table String Bool := .empty
  materials : Array (Option Nat) := #[]
  labels : Table Nat String := .empty
  log : Array LogLine := #[]
  deriving Inhabited

abbrev Walking := ReaderT Scene (ExceptT Fault (StateM Walk))

namespace Walking

def lift {α : Type} (r : Except Fault α) : Walking α :=
  match r with
  | .ok a => pure a
  | .error f => throw f

def write (level : LogLevel) (message : String) : Walking Unit :=
  modify fun w => { w with log := w.log.push ⟨level, message⟩ }

def addMaterial (m : Option Nat) : Walking Unit :=
  modify fun w => { w with materials := w.materials.push m }

def changeHead (place : Nat) (f : ActorHead → ActorHead) : Walking Unit :=
  modify fun w => { w with drafts := w.drafts.modify place fun d => { d with head := f d.head } }

def addDraft (head : ActorHead) : Walking Nat := do
  let w ← get
  set { w with drafts := w.drafts.push { head := head } }
  pure w.drafts.size

end Walking

/-! ## Names of meshes -/

def stripUnderscores (s : String) : String :=
  let front := s.toList.dropWhile (· == '_')
  String.ofList ((front.reverse.dropWhile (· == '_')).reverse)

def libraryLabel (clean : String → String) (file : String) : String :=
  let base := stripUnderscores (clean (Path.name file))
  if base.endsWith "_blend" then String.ofList (base.toList.take (base.length - 5)) else base

def freeLabel (base : String) (taken : List String) : Nat → Nat → String
  | 0, n => base ++ toString n ++ "_"
  | fuel + 1, n =>
    let label := if n = 0 then base else base ++ toString n ++ "_"
    if taken.contains label then freeLabel base taken fuel (n + 1) else label

namespace Walking

def labelOf (library : Nat) : Walking String := do
  let w ← get
  match w.labels.get? library with
  | some l => pure l
  | none =>
    let s ← read
    let base := libraryLabel s.cleanName (s.libraries[library]?.getD "")
    let label := freeLabel base w.labels.values (w.labels.size + 1) 0
    set { w with labels := w.labels.insert library label }
    pure label

def contentName (o : Object) : Walking (String × Option Nat) := do
  let s ← read
  match o.content with
  | .nothing => throw (.propertyOfNothing "name")
  | .mesh m => pure ((s.mesh m).name, (s.mesh m).library)
  | .settings i => pure ((s.settings[i]?.getD default).name, none)

def evaluate (o : Object) : Walking (Option Mesh.Shape) := do
  let s ← read
  match o.evaluated with
  | some m => pure (m.map s.mesh)
  | none =>
    match o.content with
    | .nothing => pure none
    | .mesh m => pure (some (s.mesh m))
    | .settings _ => throw (.noProperty "Data" "polygons")

def makeAsset (name : String) (shape : Mesh.Shape) : Walking Mesh.Asset := do
  let s ← read
  let names ← lift (Mesh.materialNames (shape.materials.map fun m => m.map s.materialName))
  pure ⟨name, names, ← lift (Mesh.Raw.ofShape shape)⟩

def meshName (index : Nat) : Walking (Option String) := do
  let s ← read
  let evaluated := s.object index
  let o ← lift (s.demand evaluated.source "data")
  let (name, library) ← contentName o
  let name := if o.modifiers = 0 then name else o.name ++ "_" ++ name
  let name ← match library with
    | some l => do pure ((← labelOf l) ++ name)
    | none => pure name
  let name ← lift (Name.legal name)
  match (← get).known.get? name with
  | some true => pure (some name)
  | some false => pure none
  | none =>
    let shape ← evaluate evaluated
    match shape with
    | some shape =>
      if shape.polygons = 0 then
        modify fun w => { w with known := w.known.insert name false }
        pure none
      else
        modify fun w => { w with known := w.known.insert name true }
        let asset ← makeAsset name shape
        modify fun w => { w with meshes := w.meshes.insert name asset }
        if o.slots.isEmpty then addMaterial none else o.slots.forM fun slot => addMaterial slot.material
        pure (some name)
    | none =>
      modify fun w => { w with known := w.known.insert name false }
      pure none

/-! ## Actors -/

def ownMaterials (lead : String) (slots : List MaterialSlot) : Walking (List String) := do
  let s ← read
  let lines ← slots.zipIdx.mapM fun (slot, i) => do
    if slot.ofObject then
      addMaterial slot.material
      let m ← lift (Scene.demandIndex slot.material "name")
      let name ← lift (Name.legal (s.materialName m))
      pure [lead ++ "<material id=\"" ++ toString i ++ "\" name=\"" ++ name ++ "\"/>\n"]
    else pure []
  pure lines.flatten

def visibility (o : Object) : String :=
  if o.hidden.holds then "False" else o.showsInstancer.display

def newHead (index : Nat) (name : String) : Walking ActorHead := do
  let s ← read
  let o := s.object index
  let layer ← match o.source with
    | none => pure none
    | some i =>
      match (s.object i).collections with
      | [] => pure none
      | first :: _ => do pure (some (← lift (Name.legal first)))
  pure {
    name := name
    layer := layer
    attributes := [" visible=\"" ++ visibility o ++ "\""]
    transform := ← lift (s.transformText o o.matrix) }

/-- The actor of an object and, if it is new, those of its parents. An actor with a name of its own
is always new and is not found again. -/
def actorOf : Nat → Nat → Option String → Option Nat → Walking Nat
  | 0, _, _, _ => throw .tooDeep
  | fuel + 1, index, ownName, instanceParent => do
    let s ← read
    let o := s.object index
    let own := ownName.bind fun n => if n.isEmpty then none else some n
    let name ← lift (Name.legal (own.getD o.name))
    let w ← get
    match if own.isSome then none else w.named.get? name with
    | some place => pure place
    | none =>
      let place ← addDraft (← newHead index name)
      if own.isNone then modify fun w => { w with named := w.named.insert name place }
      match instanceParent <|> o.parent with
      | some p =>
        let parent ← actorOf fuel p none none
        modify fun w => { w with
          drafts := w.drafts.modify parent fun d => { d with children := d.children.push place } }
      | none =>
        modify fun w => { w with roots := w.roots.push place }
      pure place

def findActor (index : Nat) (ownName : Option String) (instanceParent : Option Nat) :
    Walking Nat := do
  actorOf ((← read).objects.size + 2) index ownName instanceParent

def addDescription (place : Nat) (d : Description) : Walking Unit := do
  changeHead place fun h => { h with
    kind := d.kind <|> h.kind
    attributes := h.attributes ++ d.attributes
    fields := h.fields ++ d.fields }
  d.log.forM fun l => write l.level l.message

def describeMesh (place index : Nat) : Walking Unit := do
  match ← meshName index with
  | none => pure ()
  | some mesh =>
    changeHead place fun h => { h with
      kind := some "ActorMesh", fields := h.fields ++ ["\t<mesh name=\"" ++ mesh ++ "\"/>\n"] }
    let lines ← ownMaterials "\t" ((← read).object index).slots
    changeHead place fun h => { h with fields := h.fields ++ lines }

def hasGeometry (kind : String) : Bool := kind ∈ ["MESH", "CURVE", "FONT"]

def describe (place index : Nat) : Walking Unit := do
  let s ← read
  let o := s.object index
  if hasGeometry o.kind then describeMesh place index
  else if o.kind == "EMPTY" then pure ()
  else if o.kind == "CAMERA" then
    addDescription place (← lift (do describeCamera (← s.settingsOf o "dof")))
  else if o.kind == "LIGHT" then
    addDescription place (← lift (do describeLight (← s.settingsOf o "energy")))
  else if o.kind == "LIGHT_PROBE" then
    addDescription place (← lift (do describeProbe (← s.settingsOf o "type") o.matrix))
  else if o.kind ∈ ["ARMATURE", "LATTICE", "GPENCIL"] then
    write .warning ("Unsupported object type: " ++ o.kind)
  else write .error ("Invalid object type: " ++ o.kind)

/-! ## Instances -/

def place (i : Instance) (index instanced : Nat) (mesh : String) : Walking Unit := do
  let s ← read
  let parent ← match i.parent with
    | some p => pure p
    | none => throw (.violated "")
  let actor ← findActor parent none none
  let head := ((← get).drafts[actor]?.getD default).head
  let before := (head.instances.get? mesh).getD []
  let materials ← if before.isEmpty then do
      changeHead actor fun h => { h with instances := h.instances.insert mesh [] }
      pure (some (← ownMaterials "\t\t\t" (s.object instanced).slots))
    else pure none
  let m ← lift (s.instanceMatrix i)
  let below := (← lift (s.object parent).matrix.inverse) * m
  let placed : Placed := {
    below := ← lift (s.transformText (s.object index) below)
    world := ← lift (s.transformText (s.object index) m)
    materials := materials }
  changeHead actor fun h => { h with instances := h.instances.insert mesh (before ++ [placed]) }

def grouped (i : Instance) (index : Nat) : Walking Bool := do
  let s ← read
  let instanced ← lift (Scene.demandIndex i.instanced "original")
  let source ← lift (s.demand (s.object instanced).source "type")
  if !hasGeometry source.kind then pure false
  else match ← meshName instanced with
    | none => pure false
    | some mesh => do
      place i index instanced mesh
      pure true

def visit (groups selectedOnly : Bool) (i : Instance) : Walking Unit := do
  let s ← read
  let isOut ← if selectedOnly then do
      let o ← lift (s.demand i.object "original")
      pure !(← lift (s.demand o.source "select_get")).selected
    else pure false
  if isOut then pure ()
  else
    let m ← lift (s.instanceMatrix i)
    let index ← lift (Scene.demandIndex i.object "type")
    let transform ← lift (s.transformText (s.object index) m)
    let wasGrouped ← if groups && i.isInstance then grouped i index else pure false
    if !wasGrouped then
      let name ← if i.isInstance then do pure (some (← lift (s.instanceName i))) else pure none
      let actor ← findActor index name (if i.isInstance then i.parent else none)
      if i.isInstance then changeHead actor fun h => { h with transform := transform }
      describe actor index

end Walking

namespace Walk

def actorAt (w : Walk) : Nat → Nat → Actor
  | 0, _ => default
  | fuel + 1, n =>
    let d := w.drafts[n]?.getD default
    .mk d.head (d.children.toList.map (actorAt w fuel))

def actors (w : Walk) : List Actor := w.roots.toList.map (w.actorAt (w.drafts.size + 1))

def text (w : Walk) : String := Actor.renderAll "\t" w.actors

end Walk

def walkAll (groups selectedOnly : Bool) : Walking Unit := do
  (← read).instances.forM (Walking.visit groups selectedOnly)

end SceneExchange.Scene
