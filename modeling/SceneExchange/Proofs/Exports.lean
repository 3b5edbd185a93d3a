import SceneExchange.Export
import SceneExchange.Proofs.Collecting
import SceneExchange.Proofs.Places
import SceneExchange.Proofs.Simulation

/-!
# What an export leaves

An export that returns has walked the scene, compiled what the walk has met, and put everything into one
document. Its files are all there at the end: none of them overwrites another.
-/

open List

namespace SceneExchange

open SceneExchange.Path Texture

/-- Where a computation returns, this holds of its result and of the state that it leaves. -/
def Leaves {σ α : Type} (m : ExceptT Fault (StateM σ) α) (s : σ) (Q : α → σ → Prop) : Prop :=
  ∀ a s', m.run s = (.ok a, s') → Q a s'

namespace Leaves

variable {σ α β : Type} {m : ExceptT Fault (StateM σ) α} {k : α → ExceptT Fault (StateM σ) β} {s : σ}
  {Q R : α → σ → Prop} {T : β → σ → Prop}

protected theorem pure {a : α} (h : Q a s) : Leaves (pure a) s Q := by
  rintro _ _ ⟨⟩
  exact h

protected theorem throw {e : Fault} : Leaves (throw e) s Q := by
  rintro _ _ ⟨⟩

theorem imp (h : Leaves m s Q) (hQ : ∀ a u, Q a u → R a u) : Leaves m s R :=
  fun a u hRun => hQ a u (h a u hRun)

protected theorem bind (h : Leaves m s fun a u => Leaves (k a) u T) : Leaves (m >>= k) s T := by
  intro b s' hRun
  obtain ⟨a, u, hFirst, hRest⟩ := run_bind_iff.mp hRun
  exact h a u hFirst b s' hRest

protected theorem modify {g : σ → σ} {Q : Unit → σ → Prop} (h : Q () (g s)) : Leaves (modify g) s Q := by
  rintro _ _ ⟨⟩
  exact h

theorem bindGet {k : σ → ExceptT Fault (StateM σ) β} (h : Leaves (k s) s T) : Leaves (get >>= k) s T := h

theorem self : Leaves m s fun a u => m.run s = (.ok a, u) := fun _ _ h => h

theorem mapM {P : α → β → Prop} {S : σ → σ → Prop} (hRefl : ∀ s, S s s) (hTrans : ∀ {s u v}, S s u → S u v → S s v)
    {l : List α} (h : ∀ a ∈ l, ∀ s, Leaves (k a) s fun b u => P a b ∧ S s u) :
    Leaves (l.mapM k) s fun bs u => Forall₂ P l bs ∧ S s u := by
  induction l generalizing s with
  | nil =>
    rw [mapM_nil]
    exact .pure ⟨.nil, hRefl s⟩
  | cons a l ih =>
    rw [mapM_cons]
    refine .bind ((h a mem_cons_self s).imp fun b u hb => .bind ?_)
    refine (ih fun a' ha' => h a' (mem_cons_of_mem a ha')).imp fun bs v hbs => .pure ?_
    exact ⟨.cons hb.1 hbs.1, hTrans hb.2 hbs.2⟩

end Leaves

theorem Path.isFileName_append (title : String) {extension : String} (h : 2 < extension.length) :
    IsFileName (title ++ extension) := by
  have hLonger {short : String} (hShort : short.length ≤ 2) : title ++ extension ≠ short := by
    rintro rfl
    rw [String.length_append] at hShort
    omega
  exact ⟨hLonger (by decide), hLonger (by decide), hLonger (by decide)⟩

namespace Texture

open Saving

variable {shelf : Shelf} {base folder target : String} {skip : Bool} {kept : String → Prop}

theorem leaves_lift {α : Type} {r : Except Fault α} {Q : α → Shelf → Prop} (h : ∀ a, r = .ok a → Q a shelf) :
    Leaves (lift r) shelf Q := by
  cases r with
  | ok a => exact .pure (h a rfl)
  | error e => exact .throw

theorem leaves_write {bytes : List UInt8} (hFile : Path.IsFileName (name target)) (hOther : ¬kept (name target)) :
    Leaves (Saving.write target bytes) shelf fun _ u => Files.Spares kept shelf.files u.files :=
  .bindGet (.bind (leaves_lift fun _ hWrite => .modify (.write hFile hOther hWrite)))

theorem leaves_store {index : Nat} (hFile : Path.IsFileName (name target)) (hOther : ¬kept (name target)) :
    Leaves (store index target) shelf fun _ u => Files.Spares kept shelf.files u.files := by
  refine .bindGet ?_
  dsimp only
  split
  · exact leaves_write hFile hOther
  · split
    · exact .bindGet (.bind (leaves_lift fun _ hCopy => .modify (.copy hFile hOther hCopy)))
    · refine .bind (.modify (.bind (.bindGet (.pure (.bind ((leaves_write hFile hOther).imp fun _ u hSpares => ?_))))))
      split
      · exact .modify hSpares
      · exact .pure hSpares

def IsElement (entry : Entry) (e : Markup.Element) : Prop :=
  e.name = "Texture" ∧ ∃ rest, e.attributes = ("name", .text entry.name) :: rest

theorem extension_sound (format : String) : '/' ∉ (extension format).toList ∧ 2 < (extension format).length ∧
    1 ≤ (extension format).toList.length ∧
    (extension format).toList.reverse.take 1 ≠ ".udsmesh".toList.reverse.take 1 := by
  unfold extension
  repeat' split
  all_goals decide

theorem name_target {entry title : String} (hTitle : Name.legal entry = .ok title) (base folder format : String) :
    name (join (join base folder) (title ++ extension format)) = title ++ extension format := by
  rw [name_join]
  apply name_of_notMem
  rw [String.toList_append, mem_append, not_or]
  exact ⟨Name.notMem_of_legal hTitle (by decide), (extension_sound format).1⟩

/-- Describes a texture, with the digest of its file where the image has channels. -/
def described (entry : Entry) (image : Image) (base folder file : String) : Saving Markup.Element := do
  let attributes := [("name", .text entry.name), ("file", .text (join folder file))] ++
    modeAttributes image entry.hint ++ [("texturefilter", .text "3")]
  if image.channels != 0 then
    let bytes ← Saving.lift ((← get).files.read (join (join base folder) file))
    pure (.mk "Texture" attributes [.element (.leaf "Hash" [("value", .text (Bytes.Digest.sha1 bytes))])])
  else pure (.leaf "Texture" attributes)

theorem leaves_described {entry : Entry} {image : Image} {file : String} :
    Leaves (described entry image base folder file) shelf fun e u => IsElement entry e ∧ u = shelf := by
  unfold described
  dsimp only
  split
  · exact .bindGet (.bind (leaves_lift fun _ _ => .pure ⟨⟨rfl, _, rfl⟩, rfl⟩))
  · exact .pure ⟨⟨rfl, _, rfl⟩, rfl⟩

theorem leaves_save {entry : Entry} (hKept : ∀ title format, ¬kept (title ++ extension format)) :
    Leaves (save entry base folder skip) shelf fun e u => IsElement entry e ∧ Files.Spares kept shelf.files u.files := by
  refine .bindGet (.bind (leaves_lift fun title hTitle => .bindGet ?_))
  generalize shelf.images[entry.image]?.getD default = image
  have hName := name_target hTitle base folder image.format
  have hFile : Path.IsFileName (name (join (join base folder) (title ++ extension image.format))) := by
    rw [hName]
    exact isFileName_append title (extension_sound image.format).2.1
  have hOther : ¬kept (name (join (join base folder) (title ++ extension image.format))) := by
    rw [hName]
    exact hKept title image.format
  dsimp only
  split
  · refine .bind ((leaves_store hFile hOther).imp fun _ u hSpares => leaves_described.imp fun e v h => ?_)
    exact ⟨h.1, h.2 ▸ hSpares⟩
  · refine .bind (.pure (leaves_described.imp fun e v h => ?_))
    exact ⟨h.1, h.2 ▸ .refl kept shelf.files⟩

end Texture

namespace Export

open Exporting Markup Scene

variable {st : State} {base folder path : String}
variable {s : Scene} {w : Walk} {o : Options}

theorem leaves_lift {α : Type} {r : Except Fault α} {Q : α → State → Prop} (h : ∀ a, r = .ok a → Q a st) :
    Leaves (lift r) st Q := by
  cases r with
  | ok a => exact .pure (h a rfl)
  | error e => exact .throw

/-! ## Files of meshes -/

def meshPath (base folder : String) (a : Mesh.Asset) : String := join base (a.path folder)

theorem name_meshPath {a : Mesh.Asset} (h : '/' ∉ a.name.toList) : name (meshPath base folder a) = a.name ++ ".udsmesh" := by
  rw [meshPath, name_join, Mesh.Asset.path, name_join]
  apply name_of_notMem
  rw [String.toList_append, mem_append, not_or]
  exact ⟨h, by decide⟩

theorem leaves_saveMeshes {assets : List Mesh.Asset} (hNames : (assets.map Mesh.Asset.name).Nodup)
    (hPlain : ∀ a ∈ assets, '/' ∉ a.name.toList) :
    Leaves (saveMeshes base folder assets) st fun es u => es = assets.map (·.element folder) ∧
      (∀ kept, (∀ a ∈ assets, ¬kept (a.name ++ ".udsmesh")) → Files.Spares kept st.files u.files) ∧
      ∀ a ∈ assets, u.files.read (meshPath base folder a) = .ok a.bytes := by
  unfold saveMeshes
  induction assets generalizing st with
  | nil =>
    rw [mapM_nil]
    exact .pure ⟨rfl, fun kept _ => .refl kept _, by simp⟩
  | cons a assets ih =>
    obtain ⟨hNew, hNames⟩ := nodup_cons.mp hNames
    have hFile : Path.IsFileName (name (meshPath base folder a)) := by
      rw [name_meshPath (hPlain a mem_cons_self)]
      exact isFileName_append _ (by decide)
    rw [mapM_cons]
    refine .bind (.bindGet (.bind (leaves_lift ?_)))
    rintro ⟨files, e⟩ hSave
    obtain ⟨hWrite, rfl⟩ : st.files.write (meshPath base folder a) a.bytes = .ok files ∧ e = a.element folder := by
      obtain ⟨files, hFiles, ⟨⟩⟩ := bind_eq_ok.mp hSave
      exact ⟨hFiles, rfl⟩
    refine .bind (.modify (.pure (.bind ?_)))
    refine (ih hNames fun b hb => hPlain b (mem_cons_of_mem a hb)).imp ?_
    rintro es u ⟨rfl, hSpares, hRead⟩
    refine .pure ⟨rfl, fun kept hKept => ?_, fun b hb => ?_⟩
    · refine .trans (.write hFile ?_ hWrite) (hSpares kept fun b hb => hKept b (mem_cons_of_mem a hb))
      rw [name_meshPath (hPlain a mem_cons_self)]
      exact hKept a mem_cons_self
    · obtain rfl | hb := mem_cons.mp hb
      · -- Those that follow have other names.
        refine (hSpares (· = b.name ++ ".udsmesh") fun c hc hSame => hNew ?_).read hFile
          (name_meshPath (hPlain b mem_cons_self)) (Files.read_of_write hWrite)
        rw [← String.append_left_inj ".udsmesh" |>.mp hSame]
        exact mem_map.mpr ⟨c, hc, rfl⟩
      · exact hRead b hb

/-! ## The document -/

structure Product where
  walk : Walk
  environment : List Element
  /-- The session after the environment. -/
  lit : Material.Session
  documents : List Material.Document
  session : Material.Session
  animations : List Element
  textures : List Element

/-- The root of the document. -/
def Product.root (p : Product) (h : Host) (path : String) : Element :=
  Exporting.root h p.walk.text p.animations p.environment (p.walk.meshes.values.map (·.element (assetFolder path)))
    (p.documents.map (·.element)) p.textures

def materialsOf (s : Scene) (w : Walk) : List (Option Material.Definition × Bool) :=
  (distinct w.materials.toList).map fun m => (m.bind (s.materials[·]?), true)

/-- What an export that returns has made, and the files that it has left. -/
structure Produces (s : Scene) (o : Options) (h : Host) (path : String) (files : Files) (p : Product) : Prop where
  walked : outcome (walkAll o.instancedMeshes o.selectedOnly) s {} = (.ok (), p.walk)
  lit : Material.outcome (environment s.world) s.forest { images := s.images, hostImages := s.hostImages } =
    (.ok p.environment, p.lit)
  compiled : Material.outcome (Material.documents (materialsOf s p.walk) o.alwaysTwoSided) s.forest p.lit =
    (.ok p.documents, p.session)
  animated : ∀ e ∈ p.animations, e.name = "LevelSequence"
  textured : Forall₂ Texture.IsElement p.session.textures.values p.textures
  meshes : ∀ a ∈ p.walk.meshes.values, files.read (meshPath (Path.folder path) (assetFolder path) a) = .ok a.bytes
  document : files.read (documentPath path) = .ok (Bytes.ofText (p.root h path).document)

theorem append_ne_append (n : Nat) (front front' : String) {back back' : String} (hLength : n ≤ back.toList.length)
    (hLength' : n ≤ back'.toList.length) (h : back.toList.reverse.take n ≠ back'.toList.reverse.take n) :
    front ++ back ≠ front' ++ back' := by
  intro hSame
  have hEnds := congrArg (fun t : String => t.toList.reverse.take n) hSame
  simp only [String.toList_append, reverse_append] at hEnds
  rw [take_append_of_le_length (by rwa [length_reverse]), take_append_of_le_length (by rwa [length_reverse])] at hEnds
  exact h hEnds

def IsMeshFile (file : String) : Prop := ∃ mesh, file = mesh ++ ".udsmesh"

theorem not_isMeshFile_texture (title format : String) : ¬IsMeshFile (title ++ extension format) := by
  rintro ⟨mesh, hSame⟩
  obtain ⟨-, -, hLength, hLast⟩ := extension_sound format
  exact append_ne_append 1 title mesh hLength (by decide) hLast hSame

theorem not_isMeshFile_document (name : String) : ¬IsMeshFile (name ++ ".udatasmith") := by
  rintro ⟨mesh, hSame⟩
  exact append_ne_append 2 name mesh (by decide) (by decide) (by decide) hSame

theorem name_documentPath (path : String) : name (documentPath path) = name path ++ ".udatasmith" := by
  rw [documentPath, name_join]
  apply name_of_notMem
  rw [String.toList_append, mem_append, not_or]
  exact ⟨slash_notMem_name path, by decide⟩

theorem names_of_sound {qs : List Question} (h : Sound s qs w) :
    w.meshes.values.map Mesh.Asset.name = w.meshes.keys ∧ ∀ a ∈ w.meshes.values, '/' ∉ a.name.toList := by
  have hEach : ∀ e ∈ w.meshes.entries, e.2.name = e.1 ∧ '/' ∉ e.2.name.toList := by
    rintro ⟨title, a⟩ ha
    obtain ⟨y, -, hTitle, hMade⟩ := h.first_of_mesh ((Table.mem_entries_iff h.nodup).mp ha)
    obtain ⟨shape, -, hName, -⟩ := Scene.assetOf_eq_some hMade
    obtain ⟨full, hLegal⟩ := Scene.legal_of_title? hTitle
    refine ⟨hName, ?_⟩
    rw [hName]
    exact Name.notMem_of_legal hLegal (by decide)
  constructor
  · unfold Table.values Table.keys
    rw [map_map]
    exact map_congr_left fun e he => (hEach e he).1
  · intro a ha
    obtain ⟨e, he, rfl⟩ := mem_map.mp ha
    exact (hEach e he).2

theorem sound_of_walk {groups selectedOnly : Bool}
    (hWalk : outcome (walkAll groups selectedOnly) s {} = (.ok (), w)) : ∃ qs,
      qs.map Question.object = s.asked groups (visits groups selectedOnly s {} s.instances) ∧ Sound s qs w :=
  sound_of_visits prefix_rfl hWalk

theorem leaves_walk : Leaves (walk s o) st fun w _ =>
    outcome (walkAll o.instancedMeshes o.selectedOnly) s {} = (.ok (), w) := by
  generalize hRun : outcome (walkAll o.instancedMeshes o.selectedOnly) s {} = x
  have hWalk : walk s o = (do
      addLog x.2.log
      lift x.1
      pure x.2) := by
    rw [← hRun]
    rfl
  obtain ⟨r, w⟩ := x
  rw [hWalk]
  refine .bind (.modify (.bind (leaves_lift ?_)))
  rintro _ rfl
  exact .pure rfl

theorem leaves_compile : Leaves (compile s o w.materials.toList) st fun x _ =>
    ∃ lit documents, x.2.1 = documents.map (·.element) ∧
      Material.outcome (environment s.world) s.forest { images := s.images, hostImages := s.hostImages } =
        (.ok x.1, lit) ∧
      Material.outcome (Material.documents (materialsOf s w) o.alwaysTwoSided) s.forest lit =
        (.ok documents, x.2.2) := by
  generalize hRun : Material.outcome (do
    let environment ← environment s.world
    let documents ← Material.documents (materialsOf s w) o.alwaysTwoSided
    pure (environment, documents.map (·.element))) s.forest { images := s.images, hostImages := s.hostImages } = x
  have hCompile : compile s o w.materials.toList = (do
      addLog x.2.log
      let y ← lift x.1
      pure (y.1, y.2, x.2)) := by
    rw [← hRun]
    rfl
  obtain ⟨r, session⟩ := x
  rw [hCompile]
  refine .bind (.modify (.bind (leaves_lift ?_)))
  rintro ⟨environment, elements⟩ rfl
  refine .pure ?_
  obtain ⟨_, lit, hLit, hRun⟩ := Material.outcome_bind_eq_ok hRun
  obtain ⟨documents, _, hDocuments, hRun⟩ := Material.outcome_bind_eq_ok hRun
  cases hRun
  exact ⟨lit, documents, rfl, hLit, hDocuments⟩

theorem leaves_makeFolder : Leaves (makeFolder path) st fun _ _ => True :=
  .bindGet (.bind (leaves_lift fun _ _ => .modify trivial))

theorem leaves_saveAnimation {animation : Option String} : Leaves (saveAnimation base folder animation) st fun es _ =>
    ∀ e ∈ es, e.name = "LevelSequence" := by
  cases animation with
  | none => exact .pure (by simp)
  | some text =>
    refine .bind (.bindGet (.bind (leaves_lift fun _ _ => .modify (.pure fun e he => ?_))))
    obtain rfl := mem_singleton.mp he
    rfl

theorem run_saveTextures_iff {skip : Bool} {session : Material.Session} {es : List Element} {st' : State} :
    (saveTextures base folder skip session).run st = (.ok es, st') ↔
      ∃ shelf, (session.textures.values.mapM (save · base folder skip)).run { files := st.files, images := session.images } =
        (.ok es, shelf) ∧ st' = { st with files := shelf.files } := by
  generalize hRun : (session.textures.values.mapM (save · base folder skip)).run
    { files := st.files, images := session.images } = x
  have hSame : (saveTextures base folder skip session).run st = (do
      modify fun s => { s with files := x.2.files }
      lift x.1 : Exporting _).run st := by
    rw [← hRun]
    rfl
  rw [hSame]
  obtain ⟨r, shelf⟩ := x
  constructor
  · intro h
    cases r <;> cases h
    exact ⟨shelf, rfl, rfl⟩
  · rintro ⟨_, ⟨⟩, rfl⟩
    rfl

theorem leaves_saveTextures {kept : String → Prop} (hKept : ∀ title format, ¬kept (title ++ extension format))
    {skip : Bool} {session : Material.Session} : Leaves (saveTextures base folder skip session) st fun es u =>
      Forall₂ Texture.IsElement session.textures.values es ∧ Files.Spares kept st.files u.files := by
  intro es u hRun
  obtain ⟨shelf, hRuns, rfl⟩ := run_saveTextures_iff.mp hRun
  refine Leaves.mapM (S := fun u v : Texture.Shelf => Files.Spares kept u.files v.files) (fun u => .refl kept u.files)
    (fun h h' => h.trans h') (fun entry _ u => ?_) es shelf hRuns
  exact leaves_save hKept

theorem leaves_collectAndSave {h : Host} : Leaves (collectAndSave s o h path) st fun _ u =>
    ∃ p, Produces s o h path u.files p := by
  refine .bind (leaves_walk.imp fun w _ hWalk => .bind (Leaves.self.imp fun animation _ _ => .bind ?_))
  refine leaves_compile.imp ?_
  rintro ⟨environment, elements, session⟩ _ ⟨lit, documents, rfl, hLit, hCompiled⟩
  refine .bind (leaves_makeFolder.imp fun _ _ _ => .bind (leaves_saveAnimation.imp fun animations _ hAnimated => .bind ?_))
  obtain ⟨qs, -, hSound⟩ := sound_of_walk hWalk
  obtain ⟨hNames, hPlain⟩ := names_of_sound hSound
  refine (leaves_saveMeshes (by rw [hNames]; exact hSound.nodup) hPlain).imp ?_
  rintro _ u ⟨rfl, -, hMeshes⟩
  refine .bind ((leaves_saveTextures not_isMeshFile_texture).imp ?_)
  rintro textures v ⟨hTextured, hSpares⟩
  refine .bind (.bindGet (.bind (leaves_lift fun files hWrite => .modify (.pure ?_))))
  refine ⟨⟨w, environment, lit, documents, session, animations, textures⟩, hWalk, hLit, hCompiled, hAnimated, hTextured,
    fun a ha => ?_, Files.read_of_write hWrite⟩
  have hMesh : name (meshPath (Path.folder path) (assetFolder path) a) = a.name ++ ".udsmesh" :=
    name_meshPath (hPlain a ha)
  have hFile : Path.IsFileName (name (meshPath (Path.folder path) (assetFolder path) a)) := by
    rw [hMesh]
    exact isFileName_append _ (by decide)
  have hDocument := name_documentPath path
  have hLast : Files.Spares IsMeshFile v.files files := by
    refine .write ?_ ?_ hWrite
    · rw [hDocument]
      exact isFileName_append _ (by decide)
    · rw [hDocument]
      exact not_isMeshFile_document (name path)
  exact (hSpares.trans hLast).read hFile ⟨a.name, hMesh⟩ (hMeshes a ha)

end Export

end SceneExchange
