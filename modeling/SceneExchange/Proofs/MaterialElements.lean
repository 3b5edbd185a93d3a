import SceneExchange.Proofs.Isolation
import SceneExchange.Proofs.MeshElements

/-!
# Elements of materials

The document describes every material that the walk has collected. The materials of actors and instances
are among them. Those of a mesh are so only where the first object that asked for the mesh shows them: a
slot of its own hides the material that the mesh has there.
-/

open List

namespace SceneExchange.Material

open Compile

def titleOf : Option Definition → Except Fault String
  | none => .ok Mesh.defaultMaterial
  | some m => Name.legal m.name

variable {f : Graph.Forest} {s t : Session} {alwaysTwoSided : Bool}

theorem name_of_assemble {name : String} {m : Compile (List Entry)} {d : Document}
    (h : outcome (m >>= assemble name) f s = (.ok d, t)) : d.name = name := by
  obtain ⟨entries, u, -, h⟩ := outcome_bind_eq_ok h
  obtain ⟨es, v, -, h⟩ := outcome_bind_eq_ok h
  cases h
  rfl

theorem name_of_nodeDocument {m : Definition} {d : Document}
    (h : outcome (nodeDocument m alwaysTwoSided) f s = (.ok d, t)) : Name.legal m.name = .ok d.name := by
  obtain ⟨name, hName, ⟨-, rfl⟩ | ⟨_, _, _, -, -, h⟩⟩ := nodeDocument_ok h
  · exact hName
  · obtain ⟨_, _, -, h⟩ := outcome_bind_eq_ok h
    rw [name_of_assemble h, hName]

theorem name_of_document {m : Option Definition} {owned : Bool} {d : Document}
    (h : outcome (document m owned alwaysTwoSided) f s = (.ok d, t)) : titleOf m = .ok d.name := by
  obtain ⟨_, _, -, h⟩ := outcome_bind_eq_ok h
  cases m with
  | none =>
    obtain ⟨_, _, -, h⟩ := outcome_bind_eq_ok h
    rw [name_of_assemble h]
    rfl
  | some m =>
    dsimp only at h
    split at h
    · obtain ⟨_, _, -, h⟩ := outcome_bind_eq_ok h
      exact name_of_nodeDocument h
    · obtain ⟨_, _, -, h⟩ := outcome_bind_eq_ok h
      obtain ⟨name, hName, h⟩ := outcome_lift_bind h
      rw [name_of_assemble h]
      exact hName

theorem names_of_documents {l : List (Option Definition × Bool)} {ds : List Document}
    (h : outcome (documents l alwaysTwoSided) f s = (.ok ds, t)) :
    l.map (fun x => titleOf x.1) = ds.map fun d => .ok d.name := by
  obtain ⟨u, hEach, -⟩ := materials_of_documents h
  apply ext_getElem
  · rw [length_map, length_map, length_of_mapM hEach]
  · intro i hi hi'
    rw [length_map] at hi hi'
    obtain ⟨_, _, d, _, -, hOne, hd⟩ := mapM_split hEach hi
    obtain rfl : ds[i] = d := by simpa [List.getElem?_eq_getElem hi'] using hd
    rw [getElem_map, getElem_map, name_of_document hOne]

end SceneExchange.Material

namespace SceneExchange.Scene

variable {s : Scene}

/-- An object has a slot for each material of the mesh that it evaluates to, and a slot that does not
belong to the object holds that material. -/
def SlotsFit (s : Scene) : Prop :=
  ∀ x source shape, (s.object x).source = some source → s.shapeOf x = .ok (some shape) →
    Forall₂ (fun slot m => slot.ofObject = false → slot.material = m) (s.object source).slots shape.materials

def documentName (s : Scene) (m : Option Nat) : Except Fault String := Material.titleOf (m.bind (s.materials[·]?))

theorem documentName_of_legal {m : Nat} {name : String} (h : Name.legal (s.materialName m) = .ok name) :
    s.documentName (some m) = .ok name := by
  unfold materialName at h
  unfold documentName
  rw [Option.bind_some]
  cases hm : s.materials[m]? with
  | some d =>
    rw [hm] at h
    exact h
  | none =>
    -- The empty name has no legal form.
    rw [hm] at h
    cases h

theorem documentName_of_materialNames {ms : List (Option Nat)} {names : List String}
    (h : Mesh.materialNames (ms.map fun m => m.map s.materialName) = .ok names) :
    ms = [] ∧ names = [Mesh.defaultMaterial] ∨
      ms ≠ [] ∧ Forall₂ (fun m name => s.documentName m = .ok name) ms names := by
  unfold Mesh.materialNames at h
  split at h
  · rename_i hEmpty
    cases h
    exact .inl ⟨by simpa using hEmpty, rfl⟩
  · rename_i hEmpty
    refine .inr ⟨fun hNone => hEmpty (by rw [hNone]; rfl), ?_⟩
    refine (forall₂_map_left_iff.mp (forall₂_of_mapM h)).imp fun m name hName => ?_
    cases m with
    | none => exact hName
    | some m => exact documentName_of_legal hName

end SceneExchange.Scene

namespace SceneExchange.Export

open Exporting Markup Scene

theorem mem_distinct {m : Option Nat} {l : List (Option Nat)} : m ∈ distinct l ↔ m ∈ l := by
  have hAll (seen : List (Option Nat)) :
      m ∈ l.foldl (fun seen m => if seen.contains m then seen else seen ++ [m]) seen ↔ m ∈ seen ∨ m ∈ l := by
    induction l generalizing seen with
    | nil => simp
    | cons n l ih =>
      rw [foldl_cons, ih, mem_cons]
      split
      · rename_i hSeen
        replace hSeen : n ∈ seen := by simpa using hSeen
        grind
      · grind
  exact (hAll []).trans (by simp)

section References

variable {s : Scene} {o : Options} {h : Host} {path : String} {files : Files} {p : Product}

/-- The document describes a material of this name. -/
def Product.Describes (p : Product) (h : Host) (path name : String) : Prop :=
  ∃ e ∈ (p.root h path).tagged "UEPbrMaterial", e.title? = some name

theorem Produces.describes_iff (hProduces : Produces s o h path files p) {name : String} :
    p.Describes h path name ↔ ∃ m ∈ p.walk.materials, s.documentName m = .ok name := by
  have hTagged : (p.root h path).tagged "UEPbrMaterial" = p.documents.map (·.element) := by
    simpa using hProduces.tagged (show "UEPbrMaterial" ∉ _ by decide)
  have hNames := Material.names_of_documents hProduces.compiled
  rw [materialsOf, map_map] at hNames
  have hMem : .ok name ∈ p.documents.map (fun d => (.ok d.name : Except Fault String)) ↔
      ∃ m ∈ p.walk.materials, s.documentName m = .ok name := by
    rw [← hNames, mem_map]
    simp only [mem_distinct, Array.mem_toList_iff]
    rfl
  rw [← hMem, Product.Describes, hTagged]
  simp [Material.Document.element, Element.title?, Element.attributes]

def entries (e : Element) : List String := (e.tagged "Material").filterMap Element.title?

theorem entries_element (a : Mesh.Asset) (folder : String) : entries (a.element folder) = a.materials := by
  have hTagged : (a.element folder).tagged "Material" =
      a.materials.zipIdx.map fun x => .leaf "Material" [("id", .int x.2), ("name", .text x.1)] := by
    unfold Element.tagged Mesh.Asset.element
    simp [Element.children, Element.leaf, Element.name, filterMap_map]
  rw [entries, hTagged, filterMap_map]
  have hTitle : (Element.title? ∘ fun x : String × Nat => Element.leaf "Material" [("id", .int x.2), ("name", .text x.1)]) =
      some ∘ Prod.fst := rfl
  rw [hTitle, filterMap_eq_map, zipIdx_map_fst]

/-- A name that an actor, or an instance listed with it, gives a material of its own. -/
def Overrides (head : ActorHead) (name : String) : Prop :=
  ∃ i, materialLine "\t" i name ∈ head.fields ∨ ∃ mesh ps placed lines, (mesh, ps) ∈ head.instances.entries ∧
    placed ∈ ps ∧ placed.materials = some lines ∧ materialLine "\t\t\t" i name ∈ lines

theorem documentName_of_backed {w : Walk} {lead name : String} {i : Nat} (hLead : IsLead lead)
    (h : Backed s w (materialLine lead i name)) : ∃ m ∈ w.materials, s.documentName m = .ok name := by
  obtain ⟨m, hCollected, hNamed⟩ := h.exists_material (materialOf?_materialLine hLead i name)
  exact ⟨m, hCollected, Scene.documentName_of_legal hNamed⟩

theorem documentName_of_overrides {w : Walk} (hRefers : w.Refers s) {n : Nat} {name : String}
    (h : Overrides (w.headAt n) name) : ∃ m ∈ w.materials, s.documentName m = .ok name := by
  have hHead := Walk.Obeys.headAt hRefers n
  obtain ⟨i, hLine | ⟨mesh, ps, placed, lines, hMem, hPlaced, hLines, hLine⟩⟩ := h
  · exact documentName_of_backed (.inl rfl) (hHead.fields _ hLine)
  · exact documentName_of_backed (.inr rfl) (hHead.materials hMem hPlaced hLines hLine)

end References

/-- A material of a mesh that was collected, at a place where the first object that asked for the mesh has
a slot of its own. -/
inductive Hidden (s : Scene) (asked : List Nat) (w : Walk) : Option Nat → Prop
  | intro {title : String} {y source i : Nat} {shape : Mesh.Shape} {slot : MaterialSlot} {m : Option Nat}
      (collected : (w.meshes.get? title).isSome) (first : s.first? w.labels asked title = some y)
      (sourced : (s.object y).source = some source) (evaluated : s.shapeOf y = .ok (some shape))
      (held : (s.object source).slots[i]? = some slot) (ofObject : slot.ofObject = true)
      (hidden : shape.materials[i]? = some m) : Hidden s asked w m

section Hidden

variable {s : Scene} {qs : List Question} {w : Walk}

theorem collected_or_hidden (hSound : Sound s qs w) (hFits : s.SlotsFit) {title name : String} {a : Mesh.Asset}
    (ha : w.meshes.get? title = some a) (hName : name ∈ a.materials) :
    ∃ m, s.documentName m = .ok name ∧ (m ∈ w.materials ∨ Hidden s (qs.map Question.object) w m) := by
  obtain ⟨y, hFirst, hTitle, hMade⟩ := hSound.first_of_mesh ha
  obtain ⟨shape, hShape, -, hNames⟩ := Scene.assetOf_eq_some hMade
  obtain ⟨source, hSource, -⟩ := Option.bind_eq_some_iff.mp hTitle
  have hCollected : (w.meshes.get? title).isSome := by
    rw [ha]
    rfl
  have hCovers := hSound.covers hCollected hFirst hSource
  have hSlots := hFits y source shape hSource hShape
  obtain ⟨hNone, hDefault⟩ | ⟨-, hEach⟩ := Scene.documentName_of_materialNames hNames
  · rw [hNone, forall₂_nil_right_iff] at hSlots
    rw [hDefault, mem_singleton] at hName
    exact ⟨none, by rw [hName]; rfl, .inl (hCovers.lacking hSlots)⟩
  · obtain ⟨i, hi, rfl⟩ := mem_iff_getElem.mp hName
    have hm : i < shape.materials.length := by rwa [hEach.length_eq]
    have hSlot : i < (s.object source).slots.length := by rwa [hSlots.length_eq]
    refine ⟨shape.materials[i], hEach.get hm hi, ?_⟩
    cases hOwn : (s.object source).slots[i].ofObject with
    | false =>
      -- Such a slot holds the material of the mesh.
      have hSame : (s.object source).slots[i].material = shape.materials[i] := hSlots.get hSlot hm hOwn
      rw [← hSame]
      exact .inl (hCovers.each _ (getElem_mem hSlot))
    | true =>
      exact .inr (.intro hCollected hFirst hSource hShape (List.getElem?_eq_getElem hSlot) hOwn
        (List.getElem?_eq_getElem hm))

theorem Hidden.named (hSound : Sound s qs w) {m : Option Nat} (h : Hidden s (qs.map Question.object) w m) :
    ∃ a ∈ w.meshes.values, ∃ name ∈ a.materials, s.documentName m = .ok name := by
  obtain ⟨collected, first, sourced, evaluated, held, ofObject, hidden⟩ := h
  obtain ⟨a, ha⟩ := Option.isSome_iff_exists.mp collected
  obtain ⟨z, hFirst, -, hMade⟩ := hSound.first_of_mesh ha
  obtain rfl := Option.some.inj (first.symm.trans hFirst)
  obtain ⟨shape, hShape, -, hNames⟩ := Scene.assetOf_eq_some hMade
  rw [evaluated] at hShape
  cases hShape
  obtain ⟨hi, rfl⟩ := List.getElem?_eq_some_iff.mp hidden
  obtain ⟨hNone, -⟩ | ⟨-, hEach⟩ := Scene.documentName_of_materialNames hNames
  · simp [hNone] at hi
  · refine ⟨a, mem_map.mpr ⟨_, Table.mem_of_lookup ha, rfl⟩, _, getElem_mem (hEach.length_eq ▸ hi), ?_⟩
    exact hEach.get hi (hEach.length_eq ▸ hi)

end Hidden

/-- Where an export returns, all materials that actors refer to are described, and those of meshes are if
and only if the hidden ones have the names of others that were collected. -/
theorem material_references_resolve_iff {s : Scene} {o : Options} {h : Host} {path : String} {st st' : State} {n : Nat}
    (hFits : s.SlotsFit) (hRun : (collectAndSave s o h path).run st = (.ok n, st')) :
    ∃ p, Produces s o h path st'.files p ∧ ActorsStand h path p ∧
      (∀ head ∈ Actor.tagged (Actor.piecesAll "\t" p.walk.actors), ∀ name, Overrides head name → p.Describes h path name) ∧
      ((∀ e ∈ (p.root h path).tagged "StaticMesh", ∀ name ∈ entries e, p.Describes h path name) ↔
        ∀ m, Hidden s (s.asked o.instancedMeshes (visits o.instancedMeshes o.selectedOnly s {} s.instances)) p.walk m →
          ∃ m' ∈ p.walk.materials, s.documentName m' = s.documentName m) := by
  obtain ⟨p, hProduces⟩ := leaves_collectAndSave n st' hRun
  obtain ⟨qs, hAsked, hSound⟩ := sound_of_walk hProduces.walked
  obtain ⟨bs, hKept⟩ := kept_of_walk hProduces.walked
  have hTagged : (p.root h path).tagged "StaticMesh" = p.walk.meshes.values.map (·.element (assetFolder path)) := by
    simpa using hProduces.tagged (show "StaticMesh" ∉ _ by decide)
  refine ⟨p, hProduces, actorsStand h path p, ?_, ?_⟩
  · intro head hHead name hName
    rw [p.walk.tagged_text hKept.charts.hung] at hHead
    obtain ⟨n, -, rfl⟩ := mem_map.mp hHead
    exact hProduces.describes_iff.mpr (documentName_of_overrides hSound.refers hName)
  · rw [hTagged, ← hAsked]
    simp only [hProduces.describes_iff]
    constructor
    · intro hAll m hm
      obtain ⟨a, ha, name, hName, hTitle⟩ := hm.named hSound
      rw [hTitle]
      exact hAll _ (mem_map.mpr ⟨a, ha, rfl⟩) name (by rwa [entries_element])
    · intro hHidden e he name hName
      obtain ⟨a, ha, rfl⟩ := mem_map.mp he
      rw [entries_element] at hName
      obtain ⟨⟨title, a⟩, hEntry, rfl⟩ := mem_map.mp ha
      obtain ⟨m, hTitle, hm | hm⟩ :=
        collected_or_hidden hSound hFits ((Table.mem_entries_iff hSound.nodup).mp hEntry) hName
      · exact ⟨m, hm, hTitle⟩
      · rw [← hTitle]
        exact hHidden m hm

def paintedCrate : Scene where
  objects := #[{ box "Crate" with kind := "MESH", content := .mesh 0, source := some 0, slots := [⟨true, some 1⟩] }]
  meshes := #[{ (default : Mesh.Shape) with
    name := "Crate", coordinates := [0.0, 0.0, 0.0, 1.0, 0.0, 0.0, 0.0, 1.0, 0.0], corners := [0, 1, 2],
    materials := [some 0] }]
  materials := #[{ Workload.definition "Wood" 0 with useNodes := false },
    { Workload.definition "Paint" 0 with useNodes := false }]
  instances := [⟨some 0, false, none, none, none, []⟩]

theorem slotsFit_paintedCrate : paintedCrate.SlotsFit := by
  intro x source shape hSource hShape
  cases x with
  | zero =>
    cases hSource
    cases hShape
    exact .cons (fun h => absurd h (by decide)) .nil
  | succ x =>
    have hObject : paintedCrate.object (x + 1) = default := by simp [Scene.object, paintedCrate]
    rw [hObject] at hSource
    cases hSource

theorem wood_of_paintedCrate_dangles : ∃ n st' p,
    paintedCrate.SlotsFit ∧ (collectAndSave paintedCrate {} clerk "out/crate").run ⟨{}, #[], #[]⟩ = (.ok n, st') ∧
    Produces paintedCrate {} clerk "out/crate" st'.files p ∧ p.Describes clerk "out/crate" "Paint" ∧
    ∃ e ∈ (p.root clerk "out/crate").tagged "StaticMesh", ∃ name ∈ entries e, ¬p.Describes clerk "out/crate" name := by
  obtain ⟨n, st', hRun⟩ : ∃ n st', (collectAndSave paintedCrate {} clerk "out/crate").run ⟨{}, #[], #[]⟩ = (.ok n, st') :=
    exists_run (by decide +kernel)
  obtain ⟨p, hProduces, -, hOverrides, hEntries⟩ := material_references_resolve_iff slotsFit_paintedCrate hRun
  have hWalked : outcome (walkAll true false) paintedCrate {} = (.ok (), p.walk) := hProduces.walked
  refine ⟨n, st', p, slotsFit_paintedCrate, hRun, hProduces, ?_, ?_⟩
  · have hPaint : (Actor.tagged (Actor.piecesAll "\t" (outcome (walkAll true false) paintedCrate {}).2.actors)).any
        (fun head => head.fields.contains (materialLine "\t" 0 "Paint")) = true := by decide +kernel
    rw [hWalked] at hPaint
    obtain ⟨head, hHead, hLine⟩ := any_eq_true.mp hPaint
    exact hOverrides head hHead "Paint" ⟨0, .inl (by simpa using hLine)⟩
  · by_contra hNone
    push Not at hNone
    have hMaterials : (outcome (walkAll true false) paintedCrate {}).2.materials = #[some 1, some 1] := by decide +kernel
    have hCollected : ((outcome (walkAll true false) paintedCrate {}).2.meshes.get? "Crate").isSome := by decide +kernel
    have hFirst : paintedCrate.first? (outcome (walkAll true false) paintedCrate {}).2.labels
        (paintedCrate.asked true (visits true false paintedCrate {} paintedCrate.instances)) "Crate" = some 0 := by
      decide +kernel
    rw [hWalked] at hMaterials hCollected hFirst
    have hSlot : (paintedCrate.object 0).slots[0]? = some ⟨true, some 1⟩ := rfl
    have hWood : Hidden paintedCrate (paintedCrate.asked true (visits true false paintedCrate {} paintedCrate.instances))
        p.walk (some 0) :=
      .intro hCollected hFirst rfl rfl hSlot rfl rfl
    obtain ⟨m, hm, hName⟩ := hEntries.mp hNone (some 0) hWood
    rw [show p.walk.materials = #[some 1, some 1] from hMaterials] at hm
    obtain rfl : m = some 1 := by simpa using hm
    have hSame : "Paint" = "Wood" := Except.ok.inj hName
    exact absurd hSame (by decide)

end SceneExchange.Export
