import SceneExchange.Proofs.Refinement
import SceneExchange.Proofs.Simulation

/-!
# Textures that are loaded

Textures are known by their names and by their files, and a later texture takes both from an earlier one.
Only those that are still known by their files are loaded, so a texture that has lost its file to another one
is found by its name without an image.
-/

open List

namespace SceneExchange.Import

open Recursive Importing

/-- The place of the last texture that has a key. -/
def last? (key : Texture → String) (ts : Array Texture) (k : String) : Option Nat :=
  (ts.toList.map key).zipIdx.reverse.lookup k

/-- A table leads from each key to the last texture that has it. -/
structure Leads (key : Texture → String) (ts : Array Texture) (t : Table String Nat) : Prop where
  nodup : t.keys.Nodup
  get : ∀ k, t.get? k = last? key ts k

section Leads

variable {key : Texture → String} {ts : Array Texture} {t : Table String Nat}

theorem last?_push (x : Texture) (k : String) :
    last? key (ts.push x) k = if k = key x then some ts.size else last? key ts k := by
  simp only [last?, Array.toList_push, map_append, map_singleton, zipIdx_append, zipIdx_singleton, reverse_append,
    reverse_singleton, singleton_append, lookup_cons]
  split <;> simp_all

theorem exists_of_last? {k : String} {i : Nat} (h : last? key ts k = some i) : ∃ x, ts[i]? = some x ∧ key x = k := by
  simpa [List.mem_zipIdx_iff_getElem?] using Table.mem_of_lookup h

theorem Leads.push (h : Leads key ts t) (x : Texture) : Leads key (ts.push x) (t.insert (key x) ts.size) where
  nodup := Table.nodup_keys_insert h.nodup _ _
  get k := by
    rw [last?_push]
    split
    · rename_i hk
      rw [hk, Table.get?_insert_self]
    · rw [Table.get?_insert_of_ne _ ‹_›, h.get]

theorem Leads.mem_values_iff (h : Leads key ts t) {i : Nat} : i ∈ t.values ↔ ∃ k, last? key ts k = some i := by
  simp [Table.values, Table.mem_entries_iff h.nodup, h.get]

end Leads

/-- The tables of textures lead to the last ones, and no texture is loaded. -/
structure Indexed (p : Parts) (ts : List Texture) : Prop where
  textures : p.textures = ts.toArray
  names : Leads Texture.name p.textures p.textureNames
  files : Leads Texture.file p.textures p.textureFiles
  unloaded : ∀ x ∈ ts, x.image = none

theorem Indexed.addTexture {p : Parts} {ts : List Texture} (h : Indexed p ts) {x : Texture} (hx : x.image = none) :
    Indexed (p.addTexture x) (ts ++ [x]) where
  textures := by rw [Parts.addTexture, h.textures]; simp
  names := h.names.push x
  files := h.files.push x
  unloaded := by simpa [or_imp, forall_and, hx] using h.unloaded

/-! ## Reading -/

/-- The textures among the parts of a scene. -/
def texturesOf (es : List Element) : List Texture :=
  es.filterMap fun e => if e.1.name = "Texture" then texture? e else none

/-- Reading that adds textures to those that are there. -/
def Adds {α : Type} (f : Recursive α) (more : List Texture) : Prop :=
  ∀ w a w', f w = some (a, w') → ∀ ts, Indexed w.parts ts → Indexed w'.parts (ts ++ more)

theorem Adds.bind {α β : Type} {f : Recursive α} {g : α → Recursive β} {l m : List Texture} (hf : Adds f l)
    (hg : ∀ a, Adds (g a) m) : Adds (f >>= g) (l ++ m) := by
  intro w b w' hRun ts h
  obtain ⟨⟨a, v⟩, hFirst, hRest⟩ := Option.bind_eq_some_iff.mp hRun
  rw [← append_assoc]
  exact hg a v b w' hRest _ (hf w a v hFirst ts h)

theorem adds_lift {α β : Type} {o : Option α} {g : α → Recursive β} {more : List Texture}
    (hg : ∀ a, o = some a → Adds (g a) more) : Adds ((o : Recursive α) >>= g) more := by
  intro w b w' hRun
  obtain ⟨⟨a, v⟩, hFirst, hRest⟩ := Option.bind_eq_some_iff.mp hRun
  cases o with
  | none => cases hFirst
  | some a =>
    cases hFirst
    exact hg a rfl w b w' hRest

theorem adds_nil {α : Type} {f : Recursive α} (hf : ∀ w, ∃ a w', f w = some (a, w') ∧ w'.parts.textures = w.parts.textures ∧
    w'.parts.textureNames = w.parts.textureNames ∧ w'.parts.textureFiles = w.parts.textureFiles) : Adds f [] := by
  intro w a w' hRun ts h
  obtain ⟨_, _, hSame, hTextures, hNames, hFiles⟩ := hf w
  cases hSame.symm.trans hRun
  rw [append_nil]
  exact ⟨hTextures ▸ h.textures, hTextures ▸ hNames ▸ h.names, hTextures ▸ hFiles ▸ h.files, h.unloaded⟩

theorem adds_rootPart (p : Place) (e : Element) : Adds (Recursive.rootPart p e) (texturesOf [e]) := by
  have hMaterial (o : Option (String × Material)) : Adds (do Recursive.addMaterial (← o)) [] :=
    adds_lift fun m _ => adds_nil fun _ => ⟨_, _, rfl, rfl, rfl, rfl⟩
  refine Adds.bind (l := []) (m := texturesOf [e]) (adds_nil fun _ => ⟨_, _, rfl, rfl, rfl, rfl⟩) fun _ => ?_
  by_cases hName : e.1.name = "Texture"
  · have hActor : isActor e.1.name = false := by rw [hName]; decide
    rw [hActor]
    simp only [hName, Bool.false_eq_true, if_false]
    refine adds_lift fun x hx => ?_
    have hOnly : texturesOf [e] = [x] := by simp [texturesOf, hName, hx]
    rintro w _ _ ⟨⟩ ts h
    rw [hOnly]
    refine h.addTexture ?_
    simp only [texture?, Option.bind_eq_bind, Option.bind_eq_some_iff, Option.pure_def, Option.some.injEq] at hx
    obtain ⟨_, _, _, _, _, _, rfl⟩ := hx
    rfl
  · have hNone : texturesOf [e] = [] := by simp [texturesOf, hName]
    rw [hNone]
    split
    · exact adds_lift fun a _ => adds_nil fun _ => ⟨_, _, rfl, rfl, rfl, rfl⟩
    · split
      · refine adds_lift fun mesh _ => Adds.bind (l := []) (adds_lift fun _ _ => ?_) fun place => ?_
        · exact adds_nil fun _ => ⟨_, _, rfl, rfl, rfl, rfl⟩
        · exact adds_nil fun _ => ⟨_, _, rfl, rfl, rfl, rfl⟩
      · contradiction
      · exact hMaterial _
      · exact hMaterial _
      · exact hMaterial _
      · exact adds_nil fun _ => ⟨_, _, rfl, rfl, rfl, rfl⟩

theorem adds_rootParts (p : Place) (es : List Element) : Adds (es.forM (Recursive.rootPart p)) (texturesOf es) := by
  induction es with
  | nil => exact adds_nil fun _ => ⟨_, _, rfl, rfl, rfl, rfl⟩
  | cons e es ih =>
    rw [show texturesOf (e :: es) = texturesOf [e] ++ texturesOf es from filterMap_append (l := [e])]
    exact (adds_rootPart p e).bind fun _ => ih

/-! ## Loading -/

/-- What the loading of a texture gives: an image, or nothing where there is no file. -/
def Loads (p : Place) (images : Array Stage.Image) (x : Texture) : Option Nat → Prop
  | some k => (p.files.read (p.folder ++ "/" ++ x.path)).isOk = true ∧ images[k]? =
      some ⟨Path.name (p.folder ++ "/" ++ x.path), if isDataMode x.mode then "Non-Color" else "sRGB"⟩
  | none => (p.files.read (p.folder ++ "/" ++ x.path)).isOk = false

/-- The given textures have been loaded, and no others. -/
structure Loaded (p : Place) (q : Parts) (done : List Nat) (s : State) : Prop where
  parts : s.parts = { q with textures := s.parts.textures }
  image : ∀ {i : Nat} {x : Texture}, q.textures[i]? = some x → ∃ image,
    s.parts.textures[i]? = some { x with image := image } ∧
    (image.isSome ↔ i ∈ done) ∧ ∀ r ∈ image, Loads p s.stage.images x r

theorem Loads.mono {p : Place} {images images' : Array Stage.Image} {x : Texture} {r : Option Nat} (h : Loads p images x r)
    (hImages : ∀ (k : Nat) image, images[k]? = some image → images'[k]? = some image) : Loads p images' x r := by
  cases r with
  | none => exact h
  | some k => exact ⟨h.1, hImages k _ h.2⟩

theorem result_loadTexture {p : Place} {s : State} {i : Nat} {x : Texture} (hx : s.parts.textures[i]? = some x) :
    ∃ t r, result (loadTexture i) p s = (.ok (), t) ∧ Loads p t.stage.images x r ∧
      (∀ (k : Nat) image, s.stage.images[k]? = some image → t.stage.images[k]? = some image) ∧
      t.parts = { s.parts with textures := s.parts.textures.set! i { x with image := some r } } := by
  have hTexture : s.parts.texture i = x := by rw [Parts.texture, hx]; rfl
  subst hTexture
  rw [loadTexture, result_bind_ok (result_get s), result_bind_ok (show result read p s = (.ok p, s) from rfl)]
  dsimp only
  cases hRead : p.files.read (p.folder ++ "/" ++ (s.parts.texture i).path) with
  | error e => exact ⟨_, none, rfl, by rw [Loads, hRead]; rfl, fun _ _ => id, rfl⟩
  | ok bytes =>
    refine ⟨_, some s.stage.images.size, rfl, ⟨by rw [hRead]; rfl, Array.getElem?_push_size⟩, fun k image hk => ?_, rfl⟩
    exact getElem?_push_of_some hk _

theorem Loaded.step {p : Place} {q : Parts} {done : List Nat} {s : State} (h : Loaded p q done s) {i : Nat} {x : Texture}
    (hx : q.textures[i]? = some x) : ∃ t, result (loadTexture i) p s = (.ok (), t) ∧ Loaded p q (i :: done) t := by
  obtain ⟨old, hAt, -, -⟩ := h.image hx
  obtain ⟨t, r, hRun, hLoads, hImages, hParts⟩ := result_loadTexture hAt
  refine ⟨t, hRun, by rw [hParts, h.parts], @fun j y hy => ?_⟩
  rw [hParts, Array.set!_eq_setIfInBounds, Array.getElem?_setIfInBounds]
  obtain ⟨image, hy', hDone, hImage⟩ := h.image hy
  by_cases hSame : i = j
  · subst hSame
    cases hx.symm.trans hy
    refine ⟨some r, by simp [(Array.getElem?_eq_some_iff.mp hAt).1], by simp, ?_⟩
    rintro _ ⟨⟩
    exact hLoads
  · refine ⟨image, by rw [if_neg hSame, hy'], by simp [hDone, Ne.symm hSame], fun r' hr' => (hImage r' hr').mono hImages⟩

theorem Loaded.loop {p : Place} {q : Parts} {done : List Nat} {s : State} (h : Loaded p q done s) {l : List Nat}
    (hl : ∀ i ∈ l, ∃ x, q.textures[i]? = some x) :
    ∃ t, result (l.forM loadTexture) p s = (.ok (), t) ∧ Loaded p q (l.reverse ++ done) t := by
  induction l generalizing done s with
  | nil => exact ⟨s, rfl, h⟩
  | cons i l ih =>
    obtain ⟨⟨x, hx⟩, hl⟩ := forall_mem_cons.mp hl
    obtain ⟨t, hFirst, hStep⟩ := h.step hx
    obtain ⟨u, hRest, hLoop⟩ := ih hStep hl
    refine ⟨u, (result_bind_ok hFirst).trans hRest, ?_⟩
    rwa [reverse_cons, append_assoc]

theorem indexed_of_readParts {p : Place} {e : Element} {rest : List Mark} {s t : State}
    (hDistinct : Distinct (⟨false, e.1⟩ :: marksInside e rest)) (hMarks : s.marks = ⟨false, e.1⟩ :: marksInside e rest)
    (hNew : s.parts = {}) (hRun : result readParts p s = (.ok (), t)) : Indexed t.parts (texturesOf (elements e.2)) := by
  have hEmpty (key : Texture → String) : Leads key #[] .empty := ⟨nodup_nil, fun _ => rfl⟩
  obtain ⟨w, log, hScene, rfl⟩ := (follows_readParts hDistinct).eq_some hMarks hRun
  obtain ⟨⟨⟨⟩, v⟩, hGuard, hParts⟩ := Option.bind_eq_some_iff.mp hScene
  have hWorld : v = s.world := by
    unfold guard at hGuard
    split at hGuard <;> cases hGuard
    rfl
  subst hWorld
  refine adds_rootParts p _ _ _ _ hParts [] ?_
  rw [show s.world.parts = {} from hNew]
  exact ⟨rfl, hEmpty _, hEmpty _, nofun⟩

/-- After a document was read, the textures that are known by their files are loaded, and no others: where
the last texture of a name is not the last one of its file, it is found by its name without an image. -/
theorem loaded_textures_of_document {p : Place} {e : Element} {rest : List Mark} {s t : State}
    (hDistinct : Distinct (⟨false, e.1⟩ :: marksInside e rest)) (hMarks : s.marks = ⟨false, e.1⟩ :: marksInside e rest)
    (hNew : s.parts = {}) (hRun : result readParts p s = (.ok (), t)) :
    ∃ u, result (do (← get).parts.textureFiles.values.forM loadTexture) p t = (.ok (), u) ∧
      t.parts.textures = (texturesOf (elements e.2)).toArray ∧
      Leads Texture.name t.parts.textures u.parts.textureNames ∧ Leads Texture.file t.parts.textures u.parts.textureFiles ∧
      ∀ i x, t.parts.textures[i]? = some x → ∃ image, u.parts.textures[i]? = some { x with image := image } ∧
        (image.isSome ↔ last? Texture.file t.parts.textures x.file = some i) ∧ ∀ r ∈ image, Loads p u.stage.images x r := by
  have hIndexed := indexed_of_readParts hDistinct hMarks hNew hRun
  have hStart : Loaded p t.parts [] t := by
    refine ⟨rfl, @fun i x hx => ⟨none, ?_, by simp, nofun⟩⟩
    have hAt : (texturesOf (elements e.2))[i]? = some x := by simpa [hIndexed.textures] using hx
    rw [hx, ← hIndexed.unloaded x (mem_of_getElem? hAt)]
  obtain ⟨u, hLoop, hLoaded⟩ := hStart.loop fun i hi => by
    obtain ⟨_, hLast⟩ := hIndexed.files.mem_values_iff.mp hi
    exact (exists_of_last? hLast).imp fun _ => And.left
  refine ⟨u, hLoop, hIndexed.textures, ?_, ?_, fun i x hx => ?_⟩
  · rw [hLoaded.parts]
    exact hIndexed.names
  · rw [hLoaded.parts]
    exact hIndexed.files
  · obtain ⟨image, hAt, hDone, hImage⟩ := hLoaded.image hx
    refine ⟨image, hAt, hDone.trans ?_, hImage⟩
    rw [append_nil, mem_reverse, hIndexed.files.mem_values_iff]
    constructor
    · rintro ⟨_, hLast⟩
      obtain ⟨_, hAt, rfl⟩ := exists_of_last? hLast
      cases hx.symm.trans hAt
      exact hLast
    · exact fun hLast => ⟨_, hLast⟩

/-- Two names for one file: the first texture has no image. -/
def sharedFile : Element :=
  (⟨0, "DatasmithUnrealScene", []⟩, [.element ⟨1, "Texture", [("name", "A"), ("file", "t/a.png")]⟩ [],
    .element ⟨2, "Texture", [("name", "B"), ("file", "u/a.png")]⟩ []])

theorem loaded_textures_of_sharedFile : ∃ t u x,
    result readParts {} { marks := ⟨false, sharedFile.1⟩ :: marksInside sharedFile [] } = (.ok (), t) ∧
    result (do (← get).parts.textureFiles.values.forM loadTexture) {} t = (.ok (), u) ∧
    u.parts.textureNames.get? "A" = some 0 ∧ u.parts.textures[0]? = some x ∧ x.image = none := by
  have hOk : (result readParts {} { marks := ⟨false, sharedFile.1⟩ :: marksInside sharedFile [] }).1.isOk = true := by
    decide +kernel
  obtain ⟨⟨⟩, hRun⟩ := Material.exists_ok_of_isOk hOk
  obtain ⟨u, hLoop, hTextures, hNames, -, hImages⟩ := loaded_textures_of_document (by decide) rfl rfl hRun
  rw [hTextures] at hNames hImages
  obtain ⟨image, hAt, hSome, -⟩ := hImages 0 ⟨"A", "a.png", "t/a.png", none, none⟩ rfl
  refine ⟨_, u, _, hRun, hLoop, (hNames.get "A").trans rfl, hAt, ?_⟩
  by_contra hLoaded
  cases hSome.mp (Option.isSome_iff_ne_none.mpr hLoaded)

end SceneExchange.Import
