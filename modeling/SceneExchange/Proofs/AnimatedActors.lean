import SceneExchange.Proofs.MeshElements
import SceneExchange.Proofs.RoundTrip

/-!
# The actors of an animation

What moves is found among all instances of a scene, whether they are selected or not, while actors are
written for what is visited. So every motion is one of an instance that is shown or passed over, and
its actor is in the document if the instance is shown.
-/

open List

namespace SceneExchange.Scene

/-! ## Who moves -/

section Moving

variable {s : Scene} {grouped : Bool} {i : Instance} {name : String}

theorem exists_of_sighting {l : List Sighting} (h : s.sightings grouped = .ok l) {x : Sighting} (hx : x ∈ l) :
    ∃ i ∈ s.instances, s.movingName? grouped i = .ok (some x.1) := by
  obtain ⟨each, hEach, hList⟩ := bind_eq_ok.mp h
  cases hList
  obtain ⟨i, hi, hSighting⟩ := (mem_of_mapM_ok hEach).mp (reduceOption_mem_iff.mp hx)
  obtain ⟨name?, hName, hSighting⟩ := bind_eq_ok.mp hSighting
  cases name? with
  | none => cases hSighting
  | some name =>
    obtain ⟨m, -, hSighting⟩ := bind_eq_ok.mp hSighting
    cases hSighting
    exact ⟨i, hi, hName⟩

theorem label_of_movingName {k : Nat} (hk : s.instances[k]? = some i) (h : s.movingName? grouped i = .ok (some name)) :
    (grouped && i.isInstance) = false ∧ ∃ x, i.object = some x ∧ s.label (i.bearer k x) = .ok name := by
  unfold Scene.movingName? at h
  obtain ⟨o, hObject, h⟩ := bind_eq_ok.mp h
  obtain ⟨x, hx, rfl⟩ := demand_eq_ok hObject
  split at h
  · cases h
  · rename_i hGrouped
    refine ⟨by simpa [and_comm] using hGrouped, x, hx, ?_⟩
    unfold Instance.bearer
    split at h
    · rename_i hInstance
      obtain ⟨base, hBase, h⟩ := bind_eq_ok.mp h
      obtain ⟨legal, hLegal, h⟩ := bind_eq_ok.mp h
      cases h
      rw [if_pos hInstance, Scene.label, Scene.instanceAt, hk, Option.getD_some, hBase]
      exact hLegal
    · rename_i hInstance
      obtain ⟨base, hBase, h⟩ := bind_eq_ok.mp h
      obtain ⟨legal, hLegal, h⟩ := bind_eq_ok.mp h
      cases h
      cases hBase
      rw [if_neg hInstance]
      exact hLegal

end Moving

/-- The instance at a place may move, and its actor would have this name. -/
def Moves (s : Scene) (grouped : Bool) (k : Nat) (i : Instance) (name : String) : Prop :=
  s.instances[k]? = some i ∧ (grouped && i.isInstance) = false ∧ ∃ x, i.object = some x ∧ s.label (i.bearer k x) = .ok name

theorem moves_of_motion {p : Playback} {grouped : Bool} {ms : List Motion}
    (h : ((Playing.instanceMotions grouped).run p).1 = .ok ms) {mo : Motion} (hMotion : mo ∈ ms) :
    ∃ k i, Moves p.scene grouped k i mo.actor := by
  obtain ⟨first, later, hFirst, -, -, -, rfl⟩ := instanceMotions_eq_ok_iff.mp h
  obtain ⟨start, hSighted⟩ := exists_of_recordedOf (mem_motionsOf.mp hMotion).1
  obtain ⟨i, hi, hName⟩ := exists_of_sighting hFirst hSighted
  obtain ⟨k, hk⟩ := mem_iff_getElem?.mp hi
  exact ⟨k, i, hk, label_of_movingName hk hName⟩

/-! ## Who is written -/

/-- The names of the elements that an actor is written as: its own, and one for each mesh that is instanced
below it. -/
def ActorHead.titles (h : ActorHead) : List String := h.name :: h.instances.keys.map fun mesh => h.name ++ "_" ++ mesh

/-- The names of all elements of actors. -/
def Walk.titles (w : Walk) : List String := (Actor.headsOf w.actors).flatMap ActorHead.titles

theorem Walk.mem_titles {w : Walk} (hHung : w.outline.Hung) {name : String} :
    name ∈ w.titles ↔ ∃ n way, w.outline.Trail n way ∧ name ∈ (w.headAt n).titles := by
  unfold Walk.titles
  rw [← Actor.tagged_eq_headsOf "\t", w.tagged_text hHung, mem_flatMap]
  constructor
  · rintro ⟨_, hHead, hName⟩
    obtain ⟨n, hn, rfl⟩ := mem_map.mp hHead
    obtain ⟨way, hWay⟩ := (Outline.mem_written hHung).mp hn
    exact ⟨n, way, hWay, hName⟩
  · rintro ⟨n, way, hWay, hName⟩
    exact ⟨_, mem_map.mpr ⟨n, (Outline.mem_written hHung).mpr ⟨way, hWay⟩, rfl⟩, hName⟩

/-- The names that visits call for: those of bearers, and those of the meshes that instances are listed under. -/
inductive Announced (s : Scene) (seen : List (Instance × Fate)) : String → Prop
  | actor {b : Bearer} {name : String} (called : Called s seen b) (label : s.label b = .ok name) : Announced s seen name
  | mesh {k p : Nat} {i : Instance} {mesh name : String} (visit : seen[k]? = some (i, .listed mesh))
      (parent : i.parent = some p) (label : s.label (.object p) = .ok name) : Announced s seen (name ++ "_" ++ mesh)

section Visits

variable {groups selectedOnly : Bool} {s : Scene}

theorem Moves.shown {k : Nat} {i : Instance} {name : String} (h : Moves s groups k i name)
    (hIn : (selectedOnly && !s.chosen i) = false) :
    (visits groups selectedOnly s {} s.instances)[k]? = some (i, .shown) := by
  obtain ⟨hk, hGrouped, -⟩ := h
  obtain ⟨u, hu⟩ : ∃ u, (visits groups selectedOnly s {} s.instances)[k]? = some (i, fate groups selectedOnly s u i) :=
    getElem?_visits hk {}
  rw [hu, fate, hIn, hGrouped]
  rfl

end Visits

namespace Kept

variable {s : Scene} {seen : List (Instance × Fate)} {bs : List Bearer} {w : Walk}

theorem name_of_stands (h : Kept s seen bs w.outline) {n : Nat} {b : Bearer} (hStands : Stands s bs w.outline n b) :
    n < w.outline.nodes.length ∧ s.label b = .ok (w.headAt n).name := by
  obtain ⟨x, hx, hLabel⟩ := h.charts.label_of_stands hStands
  rw [w.name_headAt hx]
  exact ⟨(List.getElem?_eq_some_iff.mp hx).1, hLabel⟩

theorem exists_actor (h : Kept s seen bs w.outline) {k x : Nat} {i : Instance} {name : String}
    (hVisit : seen[k]? = some (i, .shown)) (hObject : i.object = some x) (hLabel : s.label (i.bearer k x) = .ok name) :
    ∃ n < w.outline.nodes.length, (w.headAt n).name = name := by
  obtain ⟨n, hn⟩ := h.shown hVisit hObject
  obtain ⟨hLt, hName⟩ := h.name_of_stands hn
  exact ⟨n, hLt, Except.ok.inj (hName.symm.trans hLabel)⟩

theorem mem_keys_iff (h : Kept s seen bs w.outline) {n : Nat}
    (hFilled : ∀ mesh ps, (mesh, ps) ∈ (w.headAt n).instances.entries → ps ≠ []) (mesh : String) :
    mesh ∈ (w.headAt n).instances.keys ↔ w.outline.guests s seen n mesh ≠ [] := by
  have hLists := (h.lists n mesh).shows
  rw [listed_outline] at hLists
  change Forall₂ s.Shows _ (((w.headAt n).instances.get? mesh).getD []) at hLists
  have hEmpty : w.outline.guests s seen n mesh = [] ↔ ((w.headAt n).instances.get? mesh).getD [] = [] := by
    rw [← length_eq_zero_iff, ← length_eq_zero_iff, hLists.length_eq]
  rw [Ne, hEmpty]
  constructor
  · intro hKey
    obtain ⟨⟨_, ps⟩, hEntry, rfl⟩ := mem_map.mp hKey
    obtain ⟨qs, hqs⟩ := Option.isSome_iff_exists.mp (lookup_isSome_iff.mpr ⟨_, hEntry, beq_self_eq_true _⟩)
    rw [Table.get?, hqs]
    exact hFilled _ _ (Table.mem_of_lookup hqs)
  · intro hSome
    cases hGet : (w.headAt n).instances.get? mesh with
    | none =>
      rw [hGet] at hSome
      exact absurd rfl hSome
    | some ps => exact mem_map.mpr ⟨_, Table.mem_of_lookup hGet, rfl⟩

theorem mem_titles_iff_announced (h : Kept s seen bs w.outline) (hAcyclic : ∀ i, ¬Relation.TransGen s.IsParent i i)
    (hApart : s.NamesApart seen)
    (hFilled : ∀ n way, w.outline.Trail n way → ∀ mesh ps, (mesh, ps) ∈ (w.headAt n).instances.entries → ps ≠ [])
    (name : String) : name ∈ w.titles ↔ Announced s seen name := by
  have hHung := h.charts.hung
  rw [Walk.mem_titles hHung]
  constructor
  · rintro ⟨n, way, hWay, hName⟩
    obtain rfl | hName := mem_cons.mp hName
    · obtain ⟨b, hb, hLabel⟩ := h.label_of_mem ((Outline.mem_written hHung).mpr ⟨way, hWay⟩)
      exact .actor (h.called b hb) hLabel
    · obtain ⟨mesh, hKey, rfl⟩ := mem_map.mp hName
      obtain ⟨i, hi⟩ := exists_mem_of_ne_nil _ ((h.mem_keys_iff (hFilled n way hWay) mesh).mp hKey)
      obtain ⟨⟨i, f⟩, hGuest, rfl⟩ := mem_map.mp hi
      obtain ⟨hVisit, hListed⟩ := mem_filter.mp hGuest
      obtain ⟨rfl, hHost⟩ := of_decide_eq_true hListed
      obtain ⟨p, hParent, hActor⟩ := Option.bind_eq_some_iff.mp hHost
      obtain ⟨k, hk⟩ := mem_iff_getElem?.mp hVisit
      exact .mesh hk hParent (h.name_of_stands (b := .object p) hActor).2
  · intro hAnnounced
    cases hAnnounced with
    | actor called label =>
      obtain ⟨n, hn⟩ := mem_iff_getElem?.mp (h.mem_of_called hApart called)
      obtain ⟨x, hx, hLabel⟩ := h.charts.label hn
      obtain ⟨way, hWay⟩ := h.exists_trail hApart hAcyclic (List.getElem?_eq_some_iff.mp hx).1
      refine ⟨n, way, hWay, mem_cons.mpr (.inl ?_)⟩
      rw [w.name_headAt hx]
      exact Except.ok.inj (label.symm.trans hLabel)
    | @mesh k p i mesh name visit parent label =>
      obtain ⟨_, n, hParent, hn⟩ := h.hosts visit
      cases parent.symm.trans hParent
      obtain ⟨hLt, hName⟩ := h.name_of_stands (b := .object p) hn
      obtain ⟨way, hWay⟩ := h.exists_trail hApart hAcyclic hLt
      have hGuest : i ∈ w.outline.guests s seen n mesh := by
        refine mem_map.mpr ⟨(i, .listed mesh), mem_filter.mpr ⟨mem_of_getElem? visit, ?_⟩, rfl⟩
        simp [parent, hn]
      have hKey := (h.mem_keys_iff (hFilled n way hWay) mesh).mpr (ne_nil_of_mem hGuest)
      refine ⟨n, way, hWay, mem_cons_of_mem _ (mem_map.mpr ⟨mesh, hKey, ?_⟩)⟩
      rw [Except.ok.inj (hName.symm.trans label)]

end Kept

theorem filled_of_walk {groups selectedOnly : Bool} {s : Scene} {w : Walk}
    (hWalk : outcome (walkAll groups selectedOnly) s {} = (.ok (), w)) (hHung : w.outline.Hung) {n : Nat} {way : List Nat}
    (hWay : w.outline.Trail n way) (mesh : String) (ps : List Placed)
    (hEntry : (mesh, ps) ∈ (w.headAt n).instances.entries) : ps ≠ [] := by
  have hHead : w.headAt n ∈ Actor.headsOf w.actors := by
    rw [← Actor.tagged_eq_headsOf "\t", w.tagged_text hHung]
    exact mem_map.mpr ⟨n, (Outline.mem_written hHung).mpr ⟨way, hWay⟩, rfl⟩
  exact ((formed_of_walk hWalk _ hHead).instances hEntry).1

end SceneExchange.Scene

namespace SceneExchange.Export

open Exporting Markup Scene

/-! ## The file of the animation -/

def animationName : String := "anim_new.json"

def animationPath (path : String) : String :=
  Path.join (Path.join (Path.folder path) (assetFolder path)) animationName

theorem name_animationPath (path : String) : Path.name (animationPath path) = animationName := by
  rw [animationPath, Path.name_join]
  exact Path.name_of_notMem (by decide)

theorem animationName_ne {back : String} (title : String) (hLength : 1 ≤ back.toList.length)
    (h : back.toList.reverse.take 1 ≠ ['n']) : title ++ back ≠ animationName := by
  have hName : animationName = "" ++ animationName := rfl
  rw [hName]
  exact append_ne_append 1 title "" hLength (by decide) h

theorem last_extension (format : String) : 1 ≤ (Texture.extension format).toList.length ∧
    (Texture.extension format).toList.reverse.take 1 ≠ ['n'] := by
  unfold Texture.extension
  repeat' split
  all_goals decide

variable {s : Scene} {o : Options} {h : Host} {path : String} {st : State}

theorem leaves_animate (hAnimations : o.animations = true) (hIterator : o.oldIterator = false) :
    Leaves (animate s o h) st fun animation _ => ∃ ms,
      ((Playing.instanceMotions o.instancedMeshes).run { scene := s, remains := h.remains }).1 = .ok ms ∧
        animation = file s ms := by
  generalize hRun : (Playing.animations true o.instancedMeshes []).run { scene := s, remains := h.remains } = x
  have hAnimate : animate s o h = (do
      modify fun s => { s with calls := s.calls ++ x.2.calls }
      addLog x.2.log
      lift x.1) := by
    rw [← hRun, animate, if_pos hAnimations, hIterator]
    rfl
  rw [hAnimate]
  refine .bind (.modify (.bind (.modify (leaves_lift fun animation hAnimation => ?_))))
  obtain ⟨ms, hMotions, hFile⟩ := animations_eq_ok_iff.mp (hRun ▸ hAnimation)
  exact ⟨ms, hMotions, hFile.symm⟩

theorem leaves_writeAnimation {animation : Option String} :
    Leaves (saveAnimation (Path.folder path) (assetFolder path) animation) st fun _ u =>
      ∀ text, animation = some text → u.files.read (animationPath path) = .ok (Bytes.ofText text) := by
  cases animation with
  | none => exact .pure (by simp)
  | some text =>
    refine .bind (.bindGet (.bind (leaves_lift fun _ hWrite => .modify (.pure ?_))))
    rintro _ ⟨⟩
    exact Files.read_of_write hWrite

theorem leaves_motions (hAnimations : o.animations = true) (hIterator : o.oldIterator = false) :
    Leaves (collectAndSave s o h path) st fun _ u => ∃ ms,
      ((Playing.instanceMotions o.instancedMeshes).run { scene := s, remains := h.remains }).1 = .ok ms ∧
      (ms ≠ [] → u.files.read (animationPath path) = .ok (Bytes.ofText (animationText s.rate ms))) := by
  refine .bind (leaves_walk.imp fun w _ hWalk => .bind ((leaves_animate hAnimations hIterator).imp ?_))
  rintro animation _ ⟨ms, hMotions, rfl⟩
  refine .bind (leaves_compile.imp ?_)
  rintro ⟨environment, elements, session⟩ _ -
  refine .bind (leaves_makeFolder.imp fun _ _ _ => .bind (leaves_writeAnimation.imp fun animations u hWritten => .bind ?_))
  obtain ⟨qs, -, hSound⟩ := sound_of_walk hWalk
  obtain ⟨hNames, hPlain⟩ := names_of_sound hSound
  refine (leaves_saveMeshes (by rw [hNames]; exact hSound.nodup) hPlain).imp ?_
  rintro _ v ⟨-, hMeshes, -⟩
  have hKept : ∀ title format, ¬title ++ Texture.extension format = animationName := fun title format =>
    animationName_ne title (last_extension format).1 (last_extension format).2
  refine .bind ((@leaves_saveTextures _ _ _ (· = animationName) hKept _ _).imp ?_)
  rintro textures x ⟨-, hTextures⟩
  refine .bind (.bindGet (.bind (leaves_lift fun files hWrite => .modify (.pure ⟨ms, hMotions, fun hMoves => ?_⟩))))
  have hText : file s ms = some (animationText s.rate ms) := by simp [file, hMoves]
  have hDocument := name_documentPath path
  have hLast : Files.Spares (· = animationName) x.files files := by
    refine .write ?_ ?_ hWrite
    · rw [hDocument]
      exact Path.isFileName_append _ (by decide)
    · rw [hDocument]
      exact animationName_ne _ (by decide) (by decide)
  have hFirst : Files.Spares (· = animationName) u.files v.files :=
    hMeshes _ fun a _ => animationName_ne _ (by decide) (by decide)
  have hFile : Path.IsFileName (Path.name (animationPath path)) := by
    rw [name_animationPath]
    exact ⟨by decide, by decide, by decide⟩
  exact ((hFirst.trans hTextures).trans hLast).read hFile (name_animationPath path) (hWritten _ hText)

/-! ## Motions and actors -/

/-- How the motions of an export are found among the elements of its document. -/
structure MotionsStand (s : Scene) (o : Options) (h : Host) (path : String) (p : Product) (ms : List Motion) : Prop
    extends ActorsStand h path p where
  /-- A motion is that of an instance, which the walk may pass over. -/
  moves : ∀ mo ∈ ms, ∃ k i, Moves s o.instancedMeshes k i mo.actor
  /-- What the walk does not pass over gets an actor. -/
  drafted : ∀ k i name, Moves s o.instancedMeshes k i name → (o.selectedOnly && !s.chosen i) = false →
    ∃ n < p.walk.drafts.size, (p.walk.headAt n).name = name
  /-- Actors are written if a way leads from them to the top. -/
  titles : ∀ name, name ∈ p.walk.titles ↔ ∃ n way, p.walk.outline.Trail n way ∧ name ∈ (p.walk.headAt n).titles
  /-- With the names apart, what is written are the names that the visits call for. -/
  announced : (∀ i, ¬Relation.TransGen s.IsParent i i) →
    s.NamesApart (visits o.instancedMeshes o.selectedOnly s {} s.instances) →
    ∀ name, name ∈ p.walk.titles ↔ Announced s (visits o.instancedMeshes o.selectedOnly s {} s.instances) name
  /-- So nothing is missing if the instances that move are not passed over. -/
  found : (∀ i, ¬Relation.TransGen s.IsParent i i) →
    s.NamesApart (visits o.instancedMeshes o.selectedOnly s {} s.instances) →
    ∀ k i name, Moves s o.instancedMeshes k i name → (o.selectedOnly && !s.chosen i) = false → name ∈ p.walk.titles

/-- Where an export with an animation returns, its motions are those of instances of the scene; an actor of the
document has their name if such an instance is not passed over. -/
theorem motions_stand {st' : State} {n : Nat} (hAnimations : o.animations = true) (hIterator : o.oldIterator = false)
    (hRun : (collectAndSave s o h path).run st = (.ok n, st')) :
    ∃ p ms, Produces s o h path st'.files p ∧
      ((Playing.instanceMotions o.instancedMeshes).run { scene := s, remains := h.remains }).1 = .ok ms ∧
      (ms ≠ [] → st'.files.read (animationPath path) = .ok (Bytes.ofText (animationText s.rate ms))) ∧
      MotionsStand s o h path p ms := by
  obtain ⟨p, hProduces⟩ := leaves_collectAndSave n st' hRun
  obtain ⟨ms, hMotions, hWritten⟩ := leaves_motions hAnimations hIterator n st' hRun
  obtain ⟨bs, hKept⟩ := kept_of_walk hProduces.walked
  have hHung := hKept.charts.hung
  have hSize : p.walk.outline.nodes.length = p.walk.drafts.size := by simp [Walk.outline]
  have hAnnounced := fun hAcyclic hApart => hKept.mem_titles_iff_announced hAcyclic hApart fun _ _ hWay =>
    filled_of_walk hProduces.walked hHung hWay
  refine ⟨p, ms, hProduces, hMotions, hWritten, actorsStand h path p, fun mo hMotion => moves_of_motion hMotions hMotion,
    ?_, fun name => Walk.mem_titles hHung, hAnnounced, ?_⟩
  · intro k i name hMoves hIn
    have hShown := hMoves.shown hIn
    obtain ⟨-, -, x, hObject, hLabel⟩ := hMoves
    rw [← hSize]
    exact hKept.exists_actor hShown hObject hLabel
  · intro hAcyclic hApart k i name hMoves hIn
    have hShown := hMoves.shown hIn
    obtain ⟨-, -, x, hObject, hLabel⟩ := hMoves
    exact (hAnnounced hAcyclic hApart name).mpr (.actor (.shown hShown hObject) hLabel)

/-- A tent that is selected, and a cart that is not and that moves at the first frame. -/
def fair : Scene where
  objects := #[{ box "Tent" with source := some 0, selected := true },
    { box "Cart" with source := some 1, selected := false }]
  instances := [⟨some 0, false, none, none, none, []⟩, ⟨some 1, false, none, none, none, []⟩]
  firstFrame := 1
  lastFrame := 1
  frames := [⟨1, [(1, boxAt 3.0)], none⟩]

/-- The cart moves in the animation but is not in the document. -/
theorem motions_stand_fair : ∃ n st' p ms,
    (collectAndSave fair { selectedOnly := true, animations := true } clerk "out/fair").run ⟨{}, #[], #[]⟩ = (.ok n, st') ∧
    Produces fair { selectedOnly := true, animations := true } clerk "out/fair" st'.files p ∧
    MotionsStand fair { selectedOnly := true, animations := true } clerk "out/fair" p ms ∧
    st'.files.read (animationPath "out/fair") = .ok (Bytes.ofText (animationText fair.rate ms)) ∧
    ms.map Motion.actor = ["Cart"] ∧ p.walk.titles = ["Tent"] := by
  obtain ⟨n, st', hRun⟩ : ∃ n st', (collectAndSave fair { selectedOnly := true, animations := true } clerk "out/fair").run
      ⟨{}, #[], #[]⟩ = (.ok n, st') := exists_run (by decide +kernel)
  obtain ⟨p, ms, hProduces, hMotions, hWritten, hStand⟩ := motions_stand rfl rfl hRun
  have hActors : ms.map Motion.actor = ["Cart"] := by
    have hCart : (((Playing.instanceMotions true).run { scene := fair }).1.toOption.map (·.map Motion.actor)) =
      some ["Cart"] := by decide +kernel
    rw [show ((Playing.instanceMotions true).run { scene := fair }).1 = .ok ms from hMotions] at hCart
    exact Option.some.inj hCart
  have hTitles : (outcome (walkAll true true) fair {}).2.titles = ["Tent"] := by decide +kernel
  rw [show outcome (walkAll true true) fair {} = (.ok (), p.walk) from hProduces.walked] at hTitles
  refine ⟨n, st', p, ms, hRun, hProduces, hStand, hWritten ?_, hActors, hTitles⟩
  rintro rfl
  cases hActors

end SceneExchange.Export
