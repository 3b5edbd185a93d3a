import SceneExchange.Proofs.Exports

/-!
# Elements of meshes

Every mesh that an actor of a document refers to has one element there, and its file is beside the
document under its name.
-/

open List

namespace SceneExchange.Markup.Element

def tagged (root : Element) (tag : String) : List Element :=
  root.children.filterMap fun
    | .element e => if e.name = tag then some e else none
    | .datum _ => none

def title? (e : Element) : Option String :=
  (e.attributes.lookup "name").bind fun
    | .text title => some title
    | _ => none

end SceneExchange.Markup.Element

namespace SceneExchange.Export

open Exporting Markup Scene

theorem environment_eq {world : Option World} {f : Graph.Forest} {s t : Material.Session} {es : List Element}
    (h : Material.outcome (environment world) f s = (.ok es, t)) :
    es = [] ∧ t.textures = s.textures ∨ ∃ image texture u,
      Material.outcome (Material.Compile.enterTexture image Texture.defaultHint) f u = (.ok texture, t) ∧
      u.textures = s.textures ∧ es = [environmentElement "world_environment_background" texture "0",
        environmentElement "world_environment_lighting" texture "1"] := by
  unfold environment at h
  split at h
  · cases h
    exact .inl ⟨rfl, rfl⟩
  · split at h
    · cases h
      exact .inl ⟨rfl, rfl⟩
    · obtain ⟨_, _, ⟨⟩, h⟩ := Material.outcome_bind_eq_ok h
      obtain ⟨_, _, ⟨⟩, h⟩ := Material.outcome_bind_eq_ok h
      obtain ⟨source, -, h⟩ := Material.outcome_lift_bind h
      split at h
      · cases h
        exact .inl ⟨rfl, rfl⟩
      · dsimp only at h
        split at h
        · obtain ⟨_, _, ⟨⟩, h⟩ := Material.outcome_bind_eq_ok h
          cases h
          exact .inl ⟨rfl, rfl⟩
        · obtain ⟨_, _, ⟨⟩, h⟩ := Material.outcome_bind_eq_ok h
          obtain ⟨image, -, h⟩ := Material.outcome_lift_bind h
          obtain ⟨texture, _, hTexture, h⟩ := Material.outcome_bind_eq_ok h
          cases h
          exact .inr ⟨image, texture, _, hTexture, rfl, rfl⟩

theorem name_of_environment {world : Option World} {f : Graph.Forest} {s t : Material.Session} {es : List Element}
    (h : Material.outcome (environment world) f s = (.ok es, t)) : ∀ e ∈ es, e.name = "Environment" := by
  obtain ⟨rfl, -⟩ | ⟨image, texture, u, -, -, rfl⟩ := environment_eq h
  · simp
  · intro e he
    simp only [mem_cons, not_mem_nil, or_false] at he
    obtain rfl | rfl := he <;> rfl

section Tagged

variable {s : Scene} {o : Options} {h : Host} {path : String} {files : Files} {p : Product}

theorem filterMap_elements (es : List Element) (tag : String) : ((es.map Content.element).filterMap fun
    | .element e => if e.name = tag then some e else none
    | .datum _ => none) = es.filter fun e => e.name = tag := by
  induction es with
  | nil => rfl
  | cons e es ih =>
    rw [map_cons, filterMap_cons, filter_cons, ih]
    by_cases h : e.name = tag <;> simp [h]

theorem filter_name {es : List Element} {name : String} (hName : ∀ e ∈ es, e.name = name) (tag : String) :
    (es.filter fun e => e.name = tag) = if name = tag then es else [] := by
  split
  · rename_i hTag
    exact filter_eq_self.mpr fun e he => by simp [hName e he, hTag]
  · rename_i hTag
    exact filter_eq_nil_iff.mpr fun e he => by simp [hName e he, hTag]

theorem tagged_root {actors : String} {animations environment meshes documents textures : List Element}
    (hAnimations : ∀ e ∈ animations, e.name = "LevelSequence") (hEnvironment : ∀ e ∈ environment, e.name = "Environment")
    (hMeshes : ∀ e ∈ meshes, e.name = "StaticMesh") (hDocuments : ∀ e ∈ documents, e.name = "UEPbrMaterial")
    (hTextures : ∀ e ∈ textures, e.name = "Texture") {tag : String}
    (hTag : tag ∉ ["Version", "SDKVersion", "Host", "Application", "User"]) :
    (root h actors animations environment meshes documents textures).tagged tag =
      (if "LevelSequence" = tag then animations else []) ++ (if "Environment" = tag then environment else []) ++
      (if "StaticMesh" = tag then meshes else []) ++ (if "UEPbrMaterial" = tag then documents else []) ++
      (if "Texture" = tag then textures else []) := by
  have hHeader : (headerContents h).filterMap (fun
      | .element e => if e.name = tag then some e else none
      | .datum _ => none) = [] := by
    simp only [mem_cons, not_mem_nil, or_false, not_or] at hTag
    obtain ⟨hVersion, hSdk, hHost, hApplication, hUser⟩ := hTag
    simp [headerContents, textElement, Element.name, Element.leaf, Ne.symm hVersion, Ne.symm hSdk, Ne.symm hHost,
      Ne.symm hApplication, Ne.symm hUser]
  have hActors : (if actors.isEmpty then [] else [Content.datum (.text actors)]).filterMap (fun
      | .element e => if e.name = tag then some e else none
      | .datum _ => none) = [] := by
    split <;> simp
  unfold Element.tagged root
  simp only [Element.children, filterMap_append, hHeader, hActors, filterMap_elements, filter_name hAnimations,
    filter_name hEnvironment, filter_name hMeshes, filter_name hDocuments, filter_name hTextures]
  simp

theorem name_of_meshElement {folder : String} {assets : List Mesh.Asset} :
    ∀ e ∈ assets.map (·.element folder), e.name = "StaticMesh" := by
  simp [Mesh.Asset.element, Element.name]

theorem name_of_document {documents : List Material.Document} :
    ∀ e ∈ documents.map (·.element), e.name = "UEPbrMaterial" := by
  simp [Material.Document.element, Element.name]

theorem name_of_textured {entries : List Texture.Entry} {textures : List Element}
    (h : Forall₂ Texture.IsElement entries textures) : ∀ e ∈ textures, e.name = "Texture" := by
  induction h with
  | nil => simp
  | cons hFirst _ ih => simpa using ⟨hFirst.1, ih⟩

theorem Produces.tagged (hProduces : Produces s o h path files p) {tag : String}
    (hTag : tag ∉ ["Version", "SDKVersion", "Host", "Application", "User"]) :
    (p.root h path).tagged tag = (if "LevelSequence" = tag then p.animations else []) ++
      (if "Environment" = tag then p.environment else []) ++
      (if "StaticMesh" = tag then p.walk.meshes.values.map (·.element (assetFolder path)) else []) ++
      (if "UEPbrMaterial" = tag then p.documents.map (·.element) else []) ++
      (if "Texture" = tag then p.textures else []) :=
  tagged_root hProduces.animated (name_of_environment hProduces.lit) name_of_meshElement name_of_document
    (name_of_textured hProduces.textured) hTag

end Tagged

/-! ## References to meshes -/

/-- A mesh that an actor refers to: as its own, or as one that is instanced below it. -/
def Refers (head : ActorHead) (mesh : String) : Prop := meshLine mesh ∈ head.fields ∨ mesh ∈ head.instances.keys

theorem isSome_of_refers {s : Scene} {w : Walk} (hRefers : w.Refers s) {n : Nat} {mesh : String}
    (h : Refers (w.headAt n) mesh) : (w.meshes.get? mesh).isSome := by
  have hHead := Walk.Obeys.headAt hRefers n
  obtain hLine | hKey := h
  · exact (hHead.fields _ hLine).isSome_mesh (meshOf?_meshLine mesh)
  · obtain ⟨⟨key, ps⟩, hMem, rfl⟩ := mem_map.mp hKey
    exact hHead.meshes hMem

structure ActorsStand (h : Host) (path : String) (p : Product) : Prop where
  inside : p.walk.text = "" ∨ .datum (.text p.walk.text) ∈ (p.root h path).children
  text_eq : p.walk.text = String.join ((Actor.piecesAll "\t" p.walk.actors).map Actor.Piece.text)

theorem actorsStand (h : Host) (path : String) (p : Product) : ActorsStand h path p := by
  constructor
  · by_cases hEmpty : p.walk.text.isEmpty = true
    · exact .inl (by simpa using hEmpty)
    · apply Or.inr
      simp [Product.root, root, Element.children, hEmpty]
  · exact (Actor.join_piecesAll "\t" p.walk.actors).symm

/-- How the meshes of an export are known, made and referred to. -/
structure MeshesResolve (s : Scene) (o : Options) (h : Host) (path : String) (files : Files) (p : Product) : Prop
    extends ActorsStand h path p where
  /-- Whenever an instance is about to be visited, the names that are known to have a mesh are those with one. -/
  known : ∀ k, ∃ w, outcome ((s.instances.take k).forM (Walking.visit o.instancedMeshes o.selectedOnly)) s {} = (.ok (), w) ∧
    ∀ name, w.known.get? name = some true ↔ name ∈ w.meshes.keys
  /-- Of all questions for a mesh, one at most converts geometry under a name. -/
  converted : ∃ qs, Asked s qs p.walk ∧ (conversions qs).Nodup ∧
    qs.map Question.object = s.asked o.instancedMeshes (visits o.instancedMeshes o.selectedOnly s {} s.instances)
  /-- The others look at no geometry at all. -/
  unread : ∀ (w : Walk) (x y : Nat) (title : String) (b : Bool) (evaluated : Option (Option Nat)),
    s.title? w.labels x = some title → w.known.get? title = some b →
      outcome (Walking.meshName x) (s.reshaped y evaluated) w = (.ok (if b then some title else none), w)
  resolves : ∀ head ∈ Actor.tagged (Actor.piecesAll "\t" p.walk.actors), ∀ mesh, Refers head mesh →
    ((p.root h path).tagged "StaticMesh").countP (fun e => e.title? = some mesh) = 1 ∧
      ∃ a : Mesh.Asset, a.element (assetFolder path) ∈ (p.root h path).tagged "StaticMesh" ∧ a.name = mesh ∧
        files.read (meshPath (Path.folder path) (assetFolder path) a) = .ok a.bytes

theorem title?_element (a : Mesh.Asset) (folder : String) : (a.element folder).title? = some a.name := rfl

theorem count_title {assets : List Mesh.Asset} (hNames : (assets.map Mesh.Asset.name).Nodup) {a : Mesh.Asset}
    (ha : a ∈ assets) (folder : String) :
    (assets.map (·.element folder)).countP (fun e => e.title? = some a.name) = 1 := by
  have hCount : (assets.map Mesh.Asset.name).count a.name = 1 :=
    count_eq_one_of_mem hNames (mem_map.mpr ⟨a, ha, rfl⟩)
  rw [← hCount, List.count, countP_map, countP_map]
  apply countP_congr
  intro b _
  rw [Function.comp_apply, Function.comp_apply, title?_element, decide_eq_true_iff, beq_iff_eq, Option.some_inj]

/-- Where an export returns, its references to meshes resolve. -/
theorem mesh_references_resolve {s : Scene} {o : Options} {h : Host} {path : String} {st st' : State} {n : Nat}
    (hRun : (collectAndSave s o h path).run st = (.ok n, st')) :
    ∃ p, Produces s o h path st'.files p ∧ MeshesResolve s o h path st'.files p := by
  obtain ⟨p, hProduces⟩ := leaves_collectAndSave n st' hRun
  obtain ⟨qs, hAsked, hSound⟩ := sound_of_walk hProduces.walked
  obtain ⟨bs, hKept⟩ := kept_of_walk hProduces.walked
  obtain ⟨hNames, -⟩ := names_of_sound hSound
  have hTagged : (p.root h path).tagged "StaticMesh" = p.walk.meshes.values.map (·.element (assetFolder path)) := by
    simpa using hProduces.tagged (show "StaticMesh" ∉ _ by decide)
  refine ⟨p, hProduces, actorsStand h path p, ?_, ?_, ?_, ?_⟩
  · intro k
    have hSplit : Ends (walkAll o.instancedMeshes o.selectedOnly) s {} fun _ _ => ∃ w,
        outcome ((s.instances.take k).forM (Walking.visit o.instancedMeshes o.selectedOnly)) s {} = (.ok (), w) := by
      refine .bindRead ?_
      have hParts : s.instances.forM (Walking.visit o.instancedMeshes o.selectedOnly) = (do
          (s.instances.take k).forM (Walking.visit o.instancedMeshes o.selectedOnly)
          (s.instances.drop k).forM (Walking.visit o.instancedMeshes o.selectedOnly)) := by
        nth_rewrite 1 [← take_append_drop k s.instances]
        exact forM_append
      rw [hParts]
      exact .bind (ends_self.imp fun _ w hFirst _ _ _ => ⟨w, hFirst⟩)
    obtain ⟨w, hFirst⟩ := hSplit () p.walk hProduces.walked
    obtain ⟨_, -, hPart⟩ := sound_of_visits ⟨_, take_append_drop k s.instances⟩ hFirst
    exact ⟨w, hFirst, hPart.known_iff⟩
  · exact ⟨qs, hSound.asked, hSound.asked.conversions.1, hAsked⟩
  · intro w x y title b evaluated hTitle hKnown
    exact outcome_meshName_of_known (by rwa [Scene.title?_reshaped]) hKnown
  · intro head hHead mesh hMesh
    rw [p.walk.tagged_text hKept.charts.hung] at hHead
    obtain ⟨n, -, rfl⟩ := mem_map.mp hHead
    obtain ⟨a, ha⟩ := Option.isSome_iff_exists.mp (isSome_of_refers hSound.refers hMesh)
    obtain ⟨y, -, -, hMade⟩ := hSound.first_of_mesh ha
    obtain ⟨shape, -, rfl, -⟩ := Scene.assetOf_eq_some hMade
    have hMem : a ∈ p.walk.meshes.values := mem_map.mpr ⟨_, Table.mem_of_lookup ha, rfl⟩
    rw [hTagged]
    refine ⟨count_title (by rw [hNames]; exact hSound.nodup) hMem _, a, ?_, rfl, hProduces.meshes a hMem⟩
    exact mem_map.mpr ⟨a, hMem, rfl⟩

def clerk : Host := { user := "clerk", system := "Linux", version := "4.2" }

theorem exists_run {s : Scene} {o : Options} {h : Host} {path : String} {st : State}
    (hReturns : ((collectAndSave s o h path).run st).1.toOption.isSome = true) :
    ∃ n st', (collectAndSave s o h path).run st = (.ok n, st') := by
  obtain ⟨n, hn⟩ := Option.isSome_iff_exists.mp hReturns
  exact ⟨n, _, Prod.ext (eq_ok_of_toOption hn) rfl⟩

theorem mesh_references_resolve_yard : ∃ n st' p,
    (collectAndSave yard {} clerk "out/yard").run ⟨{}, #[], #[]⟩ = (.ok n, st') ∧
    Produces yard {} clerk "out/yard" st'.files p ∧ MeshesResolve yard {} clerk "out/yard" st'.files p ∧
    (∃ head ∈ Actor.tagged (Actor.piecesAll "\t" p.walk.actors), Refers head "Rock") ∧
    ((p.root clerk "out/yard").tagged "StaticMesh").countP (fun e => e.title? = some "Rock") = 1 := by
  obtain ⟨n, st', hRun⟩ : ∃ n st', (collectAndSave yard {} clerk "out/yard").run ⟨{}, #[], #[]⟩ = (.ok n, st') :=
    exists_run (by decide +kernel)
  obtain ⟨p, hProduces, hResolve⟩ := mesh_references_resolve hRun
  have hRock : (Actor.tagged (Actor.piecesAll "\t" (outcome (walkAll true false) yard {}).2.actors)).any
      (fun head => head.instances.keys.contains "Rock") = true := by decide +kernel
  rw [show outcome (walkAll true false) yard {} = (.ok (), p.walk) from hProduces.walked] at hRock
  obtain ⟨head, hHead, hKey⟩ := any_eq_true.mp hRock
  have hRefers : Refers head "Rock" := .inr (by simpa using hKey)
  exact ⟨n, st', p, hRun, hProduces, hResolve, ⟨head, hHead, hRefers⟩, (hResolve.resolves head hHead "Rock" hRefers).1⟩

end SceneExchange.Export
