import SceneExchange.Proofs.Exports

/-!
# What saving textures leaves of the images

The path of an image is kept as it was given; the host finds the file for it. An image that carries its
bytes or has a file other than the texture is as it was after its texture is saved. Any other is rendered
to the texture and keeps the path of this file from then on. So the next texture that is saved of it is
a copy of the earlier one, whatever the image would be rendered to by then.
-/

open List

namespace SceneExchange.Texture

open Saving SceneExchange.Path Texture.Shelf

structure Request where
  entry : Entry
  base : String
  folder : String
  skip : Bool

def Image.Rendered (x : Image) (target : String) : Prop := x.packed = none ∧ (x.source = "" ∨ x.source = target)

/-- The image carries its bytes, or it keeps the path of its file as the host gives it. -/
def Image.Settled (x : Image) : Prop := x.packed ≠ none ∨ (x.source ≠ "" ∧ x.raw = x.source)

abbrev Shelf.imageAt (s : Shelf) (i : Nat) : Image := s.images[i]?.getD default

def Shelf.content (s : Shelf) (x : Image) (target : String) : Except Fault (List UInt8) :=
  match x.packed with
  | some bytes => .ok bytes
  | none =>
    if !x.source.isEmpty && x.source != target then s.files.read x.source
    else .ok (s.rendering.getD (Bytes.ofText ("saved:" ++ x.name)))

namespace Request

variable (r : Request)

def run : Saving Markup.Element := save r.entry r.base r.folder r.skip

def target? (s : Shelf) : Except Fault String := do
  pure (join (join r.base r.folder) ((← Name.legal r.entry.name) ++ extension (s.imageAt r.entry.image).format))

def writes (s : Shelf) (target : String) : Bool :=
  (s.imageAt r.entry.image).channels != 0 && !(r.skip && !s.files.exists? target)

end Request

/-- An image is stored: only one that is rendered is told of its file. -/
structure Stores (i : Nat) (target : String) (s t : Shelf) : Prop where
  images : ((s.imageAt i).Rendered target → t.images = s.images.modify i ({ · with raw := target })) ∧
    (¬(s.imageAt i).Rendered target → t.images = s.images)
  files : ∃ bytes, s.content (s.imageAt i) target = .ok bytes ∧ s.files.write target bytes = .ok t.files

theorem Stores.content {i : Nat} {target : String} {s t : Shelf} (h : Stores i target s t) :
    ∃ bytes, s.content (s.imageAt i) target = .ok bytes ∧ t.files.read target = .ok bytes :=
  h.files.imp fun _ hBytes => ⟨hBytes.1, Files.read_of_write hBytes.2⟩

theorem modify_raw_twice (images : Array Image) (i : Nat) (target : String) :
    (images.modify i ({ · with raw := target })).modify i ({ · with raw := target }) =
      images.modify i ({ · with raw := target }) := by
  ext j hj hj'
  · simp
  · rw [Array.getElem_modify, Array.getElem_modify]
    split <;> rfl

theorem leaves_written {target : String} {bytes : List UInt8} {s : Shelf} :
    Leaves (Saving.write target bytes) s fun _ t => t.images = s.images ∧ s.files.write target bytes = .ok t.files :=
  .bindGet (.bind (leaves_lift fun _ hWrite => .modify ⟨rfl, hWrite⟩))

theorem stores_of_store (s : Shelf) (i : Nat) (target : String) :
    Leaves (store i target) s fun _ t => Stores i target s t := by
  refine .bindGet ?_
  dsimp only
  split
  · rename_i bytes hPacked
    refine leaves_written.imp fun _ t hWritten => ⟨⟨fun h => ?_, fun _ => hWritten.1⟩, bytes, ?_, hWritten.2⟩
    · exact absurd (h.1.symm.trans hPacked) (by simp)
    · rw [content, hPacked]
  · rename_i hPacked
    split
    · rename_i hCopies
      refine .bindGet (.bind (leaves_lift fun files hCopy => .modify ?_))
      obtain ⟨bytes, hRead, hWrite⟩ := Files.copy_eq_ok hCopy
      refine ⟨⟨fun h => ?_, fun _ => rfl⟩, bytes, ?_, hWrite⟩
      · obtain hNone | hTarget := h.2 <;> simp_all
      · rw [content, hPacked]
        exact (if_pos hCopies).trans hRead
    · rename_i hRenders
      have hRendered : s.content (s.imageAt i) target =
          .ok (s.rendering.getD (Bytes.ofText ("saved:" ++ (s.imageAt i).name))) := by
        rw [content, hPacked]
        exact if_neg hRenders
      refine .bind (.modify (.bind (.bindGet (.pure (.bind (leaves_written.imp fun _ t hWritten => ?_))))))
      obtain ⟨hImages, hWrite⟩ := hWritten
      split
      · rename_i hPath
        obtain hTarget : (s.imageAt i).source = target := by simpa [hPath] using hRenders
        refine .modify ⟨⟨fun _ => ?_, fun h => absurd ⟨hPacked, .inr hTarget⟩ h⟩, _, hRendered, hWrite⟩
        dsimp only
        rw [hImages, hTarget]
        exact modify_raw_twice s.images i target
      · rename_i hPath
        refine .pure ⟨⟨fun _ => hImages, fun h => absurd ⟨hPacked, .inl ?_⟩ h⟩, _, hRendered, hWrite⟩
        simpa using hPath

structure Serves (r : Request) (target : String) (s t : Shelf) : Prop where
  target_eq : r.target? s = .ok target
  target_ne : target ≠ ""
  stores : r.writes s target → Stores r.entry.image target s t
  passes : ¬r.writes s target → t = s

theorem serves_of_run (r : Request) (s : Shelf) : Leaves r.run s fun _ t => ∃ target, Serves r target s t := by
  refine .bindGet (.bind (leaves_lift fun title hTitle => .bindGet ?_))
  let target := join (join r.base r.folder) (title ++ extension (s.imageAt r.entry.image).format)
  have hTarget : r.target? s = .ok target := by
    rw [Request.target?, hTitle]
    rfl
  have hNamed : target ≠ "" := by
    intro hEmpty
    have hName := name_target hTitle r.base r.folder (s.imageAt r.entry.image).format
    rw [show join _ _ = "" from hEmpty] at hName
    exact (isFileName_append title (extension_sound _).2.1).1 hName.symm
  dsimp only
  split
  · rename_i hWrites
    refine .bind ((stores_of_store s r.entry.image _).imp fun _ u hStores => leaves_described.imp fun _ t h => ?_)
    exact ⟨target, hTarget, hNamed, fun _ => h.2 ▸ hStores, absurd hWrites⟩
  · rename_i hPasses
    refine .bind (.pure (leaves_described.imp fun _ t h => ?_))
    exact ⟨target, hTarget, hNamed, (absurd · hPasses), fun _ => h.2⟩

def Shelf.Keeps (s t : Shelf) : Prop := ∀ (i : Nat) (x : Image), s.images[i]? = some x → x.Settled → t.images[i]? = some x

theorem Image.Settled.raw_of_rendered {x : Image} {target : String} (h : x.Settled) (hRendered : x.Rendered target) :
    x.raw = target := by
  obtain hPacked | ⟨hSource, hRaw⟩ := h
  · exact absurd hRendered.1 hPacked
  · exact hRaw.trans (hRendered.2.resolve_left hSource)

theorem Stores.keeps {i : Nat} {target : String} {s t : Shelf} (h : Stores i target s t) : s.Keeps t := by
  intro j x hx hSettled
  by_cases hRendered : (s.imageAt i).Rendered target
  · rw [h.images.1 hRendered, Array.getElem?_modify]
    split
    · subst j
      rw [imageAt, hx] at hRendered
      rw [hx, ← hSettled.raw_of_rendered hRendered]
      rfl
    · exact hx
  · rwa [h.images.2 hRendered]

theorem keeps_of_runs (rs : List Request) (s : Shelf) : Leaves (rs.mapM Request.run) s fun _ t => s.Keeps t := by
  refine (Leaves.mapM (P := fun _ _ => True) (fun _ _ _ hx _ => hx) ?_ ?_).imp fun _ _ h => h.2
  · exact fun h h' i x hx hSettled => h' i x (h i x hx hSettled) hSettled
  · refine fun r _ s => (serves_of_run r s).imp fun _ t ⟨target, hServes⟩ => ⟨trivial, ?_⟩
    by_cases hWrites : r.writes s target
    · exact (hServes.stores hWrites).keeps
    · exact hServes.passes hWrites ▸ fun _ _ hx _ => hx

section Paths

variable {r : Request} {target : String} {s t : Shelf}

theorem Serves.raw_of_rendered (h : Serves r target s t) (hi : r.entry.image < s.images.size)
    (hWrites : r.writes s target) (hRendered : (s.imageAt r.entry.image).Rendered target) :
    (t.imageAt r.entry.image).raw = target ∧ (t.imageAt r.entry.image).packed = none := by
  rw [imageAt, (h.stores hWrites).images.1 hRendered, Array.getElem?_modify, if_pos rfl, Array.getElem?_eq_getElem hi]
  refine ⟨rfl, ?_⟩
  simpa [imageAt, hi] using hRendered.1

theorem Serves.images_ne_iff (h : Serves r target s t) : t.images ≠ s.images ↔
    r.entry.image < s.images.size ∧ r.writes s target ∧ (s.imageAt r.entry.image).Rendered target ∧
      (s.imageAt r.entry.image).raw ≠ target := by
  constructor
  · intro hNe
    have hWrites : r.writes s target := by_contra fun hPasses => hNe (by rw [h.passes hPasses])
    have hRendered := by_contra fun hKept => hNe ((h.stores hWrites).images.2 hKept)
    rw [(h.stores hWrites).images.1 hRendered] at hNe
    have hi : r.entry.image < s.images.size := by_contra fun hOut => hNe <|
      Array.ext (by simp) fun j hj hj' => by rw [Array.getElem_modify, if_neg (by omega)]
    refine ⟨hi, hWrites, hRendered, fun hRaw => hNe (Array.ext (by simp) fun j hj hj' => ?_)⟩
    rw [Array.getElem_modify]
    split
    · subst j
      simp [← hRaw, imageAt, hi]
    · rfl
  · rintro ⟨hi, hWrites, hRendered, hRaw⟩ hSame
    have hTold := (h.raw_of_rendered hi hWrites hRendered).1
    rw [imageAt, hSame] at hTold
    exact hRaw hTold

end Paths

/-- Saving a texture changes its image if and only if the texture is written, the image has no bytes and no
other file, and the path it keeps is not that of the texture. What is written then is read again for the
next texture of the image. -/
theorem image_paths_of_saves {r : Request} {s t : Shelf} {e : Markup.Element} (hRun : r.run.run s = (.ok e, t)) :
    ∃ target, r.target? s = .ok target ∧
      (t.images ≠ s.images ↔ r.entry.image < s.images.size ∧ r.writes s target ∧
        (s.imageAt r.entry.image).Rendered target ∧ (s.imageAt r.entry.image).raw ≠ target) ∧
      (t.images ≠ s.images → (t.imageAt r.entry.image).raw = target) ∧
      (r.writes s target → ∃ bytes, s.content (s.imageAt r.entry.image) target = .ok bytes ∧
        t.files.read target = .ok bytes) ∧
      (∀ (rs : List Request) (u : Shelf) (es : List Markup.Element), (rs.mapM Request.run).run s = (.ok es, u) → s.Keeps u) ∧
      (t.images ≠ s.images → (t.imageAt r.entry.image).source = target →
        ∀ (r' : Request) (u v : Shelf) (e' : Markup.Element) (target' : String), u.images = t.images →
          r'.entry.image = r.entry.image → r'.run.run u = (.ok e', v) → r'.target? u = .ok target' → target' ≠ target →
          r'.writes u target' → v.files.read target' = u.files.read target) := by
  obtain ⟨target, hServes⟩ := serves_of_run r s e t hRun
  have hChanged (hNe : t.images ≠ s.images) :
      (t.imageAt r.entry.image).raw = target ∧ (t.imageAt r.entry.image).packed = none := by
    obtain ⟨hi, hWrites, hRendered, -⟩ := hServes.images_ne_iff.mp hNe
    exact hServes.raw_of_rendered hi hWrites hRendered
  refine ⟨target, hServes.target_eq, hServes.images_ne_iff, fun hNe => (hChanged hNe).1,
    fun hWrites => (hServes.stores hWrites).content, fun rs u es hRuns => keeps_of_runs rs s es u hRuns, ?_⟩
  intro hNe hSource r' u v e' target' hImages hSame hRun' hTarget' hOther hWrites'
  obtain ⟨_, hServes'⟩ := serves_of_run r' u e' v hRun'
  obtain rfl := Except.ok.inj (hServes'.target_eq.symm.trans hTarget')
  obtain ⟨bytes, hContent, hRead⟩ := (hServes'.stores hWrites').content
  rw [Shelf.imageAt, hSame, hImages, Shelf.content, (hChanged hNe).2, hSource] at hContent
  rw [hRead, ← hContent]
  exact if_pos (by simp [hServes.target_ne, hOther.symm])

section Sample

def noiseShelf : Shelf where
  files := { folders := ["", "a", "a/Assets", "b", "b/Assets"] }
  images := #[⟨"Noise", "PNG", 4, false, none, "", id⟩]
  rendering := some [1]

def noiseRequest (base : String) : Request := ⟨⟨"Noise", 0, "SRGB"⟩, base, "Assets", false⟩

theorem target?_noise : (noiseRequest "a").target? noiseShelf = .ok "a/Assets/Noise.png" :=
  eq_ok_of_toOption (by decide +kernel)

/-- The second texture is not what the image is rendered to by then. -/
theorem image_paths_of_saves_noise :
    ∃ e t e' v, (noiseRequest "a").run.run noiseShelf = (.ok e, t) ∧ t.images ≠ noiseShelf.images ∧
      (noiseRequest "b").run.run { t with rendering := some [2] } = (.ok e', v) ∧
      v.files.read "b/Assets/Noise.png" = .ok [1] := by
  let first := (noiseRequest "a").run.run noiseShelf
  let later : Shelf := { first.2 with rendering := some [2] }
  obtain ⟨e, hRun⟩ := Material.exists_ok_of_isOk (x := first) (by decide +kernel)
  obtain ⟨e', hRun'⟩ := Material.exists_ok_of_isOk (x := (noiseRequest "b").run.run later) (by decide +kernel)
  obtain ⟨target, hSame, hChanges, -, -, -, hAgain⟩ := image_paths_of_saves hRun
  obtain rfl := Except.ok.inj (hSame.symm.trans target?_noise)
  have hNe := hChanges.mpr ⟨by decide, by decide +kernel, ⟨rfl, .inl rfl⟩, by decide⟩
  refine ⟨e, _, e', _, hRun, hNe, hRun', ?_⟩
  have hRead : later.files.read "a/Assets/Noise.png" = .ok [1] := eq_ok_of_toOption (by decide +kernel)
  rw [← hRead]
  exact hAgain hNe (by decide +kernel) (noiseRequest "b") later _ e' _ rfl rfl hRun'
    (eq_ok_of_toOption (by decide +kernel)) (by decide) (by decide +kernel)

end Sample

end SceneExchange.Texture
