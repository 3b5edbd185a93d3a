import SceneExchange.Proofs.ImagePaths

/-!
# Textures that are skipped

With the option to skip textures, one whose file is there is written as ever, and one whose file is not
there is not written, so that its digest cannot be taken. What returns has done all that it would have
done without the option.
-/

open List

namespace SceneExchange

theorem Table.contains_eq_isSome {κ α : Type} [BEq κ] [LawfulBEq κ] (t : Table κ α) (k : κ) :
    t.contains k = (t.get? k).isSome := by
  rw [Bool.eq_iff_iff, get?, lookup_isSome_iff]
  simp [contains, BEq.comm]

namespace Files

variable {f f' : Files} {path : String} {bytes : List UInt8}

theorem error_of_follow {here parts : List String} {e : Fault} (h : f.follow path here parts = .error e) :
    e = .noSuchFile path ∨ e = .notFolder path := by
  fun_induction follow f path here parts with
  | case1 => cases h
  | case2 _ _ _ _ ih => exact ih h
  | case3 here part rest place _ _ =>
    cases h
    unfold blocked
    split
    · exact .inr rfl
    · exact .inl rfl
  | case4 _ _ _ _ _ _ _ ih => exact ih h
  | case5 _ _ _ _ _ _ _ ih => exact ih h

theorem read_of_absent (h : f.exists? path = false) :
    ∃ e, f.read path = .error e ∧ (e = .noSuchFile path ∨ e = .notFolder path) := by
  unfold exists? resolve? at h
  unfold read
  cases hPlace : f.resolve path with
  | error e =>
    refine ⟨e, rfl, ?_⟩
    cases hFollow : f.follow path [] (Path.parts path) <;> rw [resolve, hFollow] at hPlace <;> cases hPlace
    exact error_of_follow hFollow
  | ok place =>
    rw [hPlace] at h
    obtain ⟨hFile, hFolder⟩ := Bool.or_eq_false_iff.mp h
    rw [Table.contains_eq_isSome, Option.isSome_eq_false_iff, Option.isNone_iff_eq_none] at hFile
    refine ⟨_, ?_, .inl rfl⟩
    simp [bind, Except.bind, hFolder, hFile, throw, throwThe, MonadExceptOf.throw]

theorem exists?_of_write (hThere : f.exists? path = true) (h : f.write path bytes = .ok f') (other : String) :
    f'.exists? other = f.exists? other := by
  obtain ⟨place, hPlace, hFile, rfl⟩ := write_eq_ok h
  unfold exists? at hThere ⊢
  let after : Files := { f with contents := f.contents.insert place bytes }
  rw [resolve?_of_folders (show after.folders = f.folders from rfl)]
  rw [resolve?, hPlace] at hThere
  have hContains : f.contents.contains place = true := by
    simpa [Except.toOption, show f.isFolder place = false from hFile] using hThere
  cases f.resolve? other with
  | none => rfl
  | some p =>
    refine congrArg (· || f.isFolder p) ?_
    rw [Table.contains_eq_isSome, Table.contains_eq_isSome]
    by_cases hSame : p = place
    · subst hSame
      rw [Table.get?_insert_self, ← Table.contains_eq_isSome, hContains]
      rfl
    · rw [Table.get?_insert_of_ne _ hSame]

end Files

namespace Texture

open Saving SceneExchange.Path Texture.Shelf

variable {entry : Entry} {base folder : String} {s t : Shelf}

/-- The file of a texture is there, if it has one. -/
def Present (base folder : String) (s : Shelf) (entry : Entry) : Prop :=
  (s.imageAt entry.image).channels ≠ 0 → ∀ target, Request.target? ⟨entry, base, folder, true⟩ s = .ok target →
    s.files.exists? target = true

theorem run_save {title : String} (hTitle : Name.legal entry.name = .ok title) (skip : Bool) :
    let image := s.imageAt entry.image
    let file := title ++ extension image.format
    let target := join (join base folder) file
    (save entry base folder skip).run s = (if (image.channels != 0 && !(skip && !s.files.exists? target)) = true then
      store entry.image target >>= fun _ => described entry image base folder file
      else described entry image base folder file).run s := by
  dsimp only
  unfold save
  rw [hTitle]
  rfl

theorem run_save_of_present (h : Present base folder s entry) :
    (save entry base folder true).run s = (save entry base folder false).run s := by
  cases hTitle : Name.legal entry.name with
  | error e =>
    have hFails (skip : Bool) : (save entry base folder skip).run s = (.error e, s) := by
      unfold save
      rw [hTitle]
      rfl
    rw [hFails, hFails]
  | ok title =>
    have hTarget : Request.target? ⟨entry, base, folder, true⟩ s =
        .ok (join (join base folder) (title ++ extension (s.imageAt entry.image).format)) := by
      rw [Request.target?, hTitle]
      rfl
    rw [run_save hTitle, run_save hTitle]
    by_cases hChannels : (s.imageAt entry.image).channels = 0
    · rw [hChannels, bne_self_eq_false, Bool.false_and, Bool.false_and]
    · rw [h hChannels _ hTarget, Bool.not_true, Bool.and_false, Bool.and_false]

theorem run_get_lift {α β : Type} {r : Shelf → Except Fault α} {k : α → Saving β} {e : Fault} (h : r s = .error e) :
    (get >>= fun s => lift (r s) >>= k).run s = (.error e, s) := by
  change (lift (r s) >>= k).run s = _
  rw [h]
  rfl

theorem run_described {image : Image} {file : String} {e : Fault} (hChannels : image.channels ≠ 0)
    (hRead : s.files.read (join (join base folder) file) = .error e) :
    (described entry image base folder file).run s = (.error e, s) := by
  have hIf : (image.channels != 0) = true := by simpa using hChannels
  simp only [described, hIf, if_true]
  exact run_get_lift hRead

theorem run_save_of_absent (h : ¬Present base folder s entry) :
    ∃ target e, Request.target? ⟨entry, base, folder, true⟩ s = .ok target ∧
      (e = .noSuchFile target ∨ e = .notFolder target) ∧ (save entry base folder true).run s = (.error e, s) := by
  obtain ⟨hChannels, target, hTarget, hAbsent⟩ : (s.imageAt entry.image).channels ≠ 0 ∧ ∃ target,
      Request.target? ⟨entry, base, folder, true⟩ s = .ok target ∧ s.files.exists? target = false := by
    simpa [Present] using h
  obtain ⟨e, hRead, hFault⟩ := Files.read_of_absent hAbsent
  refine ⟨target, e, hTarget, hFault, ?_⟩
  obtain ⟨title, hTitle, ⟨⟩⟩ := bind_eq_ok.mp hTarget
  rw [run_save hTitle, show s.files.exists? (join (join base folder) _) = false from hAbsent, if_neg (by simp)]
  exact run_described hChannels hRead

theorem Stores.imageAt {i : Nat} {target : String} (h : Stores i target s t) (j : Nat) :
    (t.imageAt j).channels = (s.imageAt j).channels ∧ (t.imageAt j).format = (s.imageAt j).format := by
  by_cases hRendered : (s.imageAt i).Rendered target
  · rw [Shelf.imageAt, h.images.1 hRendered, Array.getElem?_modify]
    split
    · cases hImage : s.images[j]? <;> simp [Shelf.imageAt, hImage]
    · exact ⟨rfl, rfl⟩
  · rw [Shelf.imageAt, h.images.2 hRendered]
    exact ⟨rfl, rfl⟩

theorem present_of_run {e : Markup.Element} (hRun : (save entry base folder true).run s = (.ok e, t)) :
    Present base folder s entry ∧ ∀ other, Present base folder t other ↔ Present base folder s other := by
  have hPresent : Present base folder s entry := by
    by_contra hAbsent
    obtain ⟨target, fault, -, -, hFails⟩ := run_save_of_absent hAbsent
    cases hRun.symm.trans hFails
  obtain ⟨target, hServes⟩ := serves_of_run ⟨entry, base, folder, true⟩ s e t hRun
  refine ⟨hPresent, fun other => ?_⟩
  by_cases hWrites : Request.writes ⟨entry, base, folder, true⟩ s target
  · obtain ⟨bytes, -, hWrite⟩ := (hServes.stores hWrites).files
    obtain ⟨-, hThere⟩ : _ ∧ s.files.exists? target = true := by simpa [Request.writes] using hWrites
    have hFiles := Files.exists?_of_write hThere hWrite
    obtain ⟨hChannels, hFormat⟩ := (hServes.stores hWrites).imageAt other.image
    simp only [Present, Request.target?, hChannels, hFormat, hFiles]
  · rw [hServes.passes hWrites]

/-- Skipping returns if and only if each file is there and the textures can be saved. -/
theorem skips_iff {entries : List Entry} {es : List Markup.Element} :
    (entries.mapM (save · base folder true)).run s = (.ok es, t) ↔
      (entries.mapM (save · base folder false)).run s = (.ok es, t) ∧ ∀ entry ∈ entries, Present base folder s entry := by
  induction entries generalizing s t es with
  | nil => simp
  | cons entry entries ih =>
    rw [mapM_cons, mapM_cons, forall_mem_cons]
    constructor
    · intro hRun
      obtain ⟨e, u, hHead, hRest⟩ := run_bind_iff.mp hRun
      obtain ⟨es, v, hTail, hRest⟩ := run_bind_iff.mp hRest
      obtain ⟨hPresent, hSame⟩ := present_of_run hHead
      obtain ⟨hPlain, hAll⟩ := ih.mp hTail
      rw [run_save_of_present hPresent] at hHead
      exact ⟨run_bind_iff.mpr ⟨e, u, hHead, run_bind_iff.mpr ⟨es, v, hPlain, hRest⟩⟩, hPresent,
        fun other hOther => (hSame other).mp (hAll other hOther)⟩
    · rintro ⟨hRun, hPresent, hAll⟩
      obtain ⟨e, u, hHead, hRest⟩ := run_bind_iff.mp hRun
      obtain ⟨es, v, hTail, hRest⟩ := run_bind_iff.mp hRest
      rw [← run_save_of_present hPresent] at hHead
      have hSame := (present_of_run hHead).2
      have hSkipped := ih.mpr ⟨hTail, fun other hOther => (hSame other).mpr (hAll other hOther)⟩
      exact run_bind_iff.mpr ⟨e, u, hHead, run_bind_iff.mpr ⟨es, v, hSkipped, hRest⟩⟩

end Texture

namespace Export

open Exporting Texture Scene

/-- Where the first computation returns, the second one returns the same. -/
def Within {σ α : Type} (m m' : ExceptT Fault (StateM σ) α) : Prop := ∀ s, Leaves m s fun a t => m'.run s = (.ok a, t)

theorem Within.bind {σ α β : Type} {m m' : ExceptT Fault (StateM σ) α} {k k' : α → ExceptT Fault (StateM σ) β}
    (h : Within m m') (hk : ∀ a, Within (k a) (k' a)) : Within (m >>= k) (m' >>= k') :=
  fun s => .bind ((h s).imp fun a t hRun => (hk a t).imp fun _ _ hRest => run_bind_iff.mpr ⟨a, t, hRun, hRest⟩)

theorem Within.refl {σ α : Type} (m : ExceptT Fault (StateM σ) α) : Within m m := fun _ => .self

theorem within_saveTextures {base folder : String} {session : Material.Session} :
    Within (saveTextures base folder true session) (saveTextures base folder false session) := by
  intro st es st' hRun
  obtain ⟨shelf, hRun, hFiles⟩ := run_saveTextures_iff.mp hRun
  exact run_saveTextures_iff.mpr ⟨shelf, (skips_iff.mp hRun).1, hFiles⟩

theorem within_collectAndSave (s : Scene) (o : Options) (h : Host) (path : String) :
    Within (collectAndSave s { o with skipTextures := true } h path)
      (collectAndSave s { o with skipTextures := false } h path) := by
  refine .bind (.refl (walk s o)) fun w => .bind (.refl (animate s o h)) fun animation => ?_
  refine .bind (.refl (compile s o _)) fun x => ?_
  refine .bind (.refl _) fun _ => .bind (.refl _) fun _ => .bind (.refl _) fun _ => ?_
  exact .bind within_saveTextures fun textures => .refl _

/-- Textures that are skipped are saved as ever where all their files are there; where one is not, its digest
cannot be taken, and nothing is written for it. An export that skips its textures and returns has left
what it would have left otherwise. -/
theorem skipped_textures_are_saved_or_missed (base folder : String) (shelf : Shelf) (scene : Scene) (o : Options)
    (h : Host) (path : String) :
    (∀ (entries : List Entry) (es : List Markup.Element) (t : Shelf),
      (entries.mapM (Texture.save · base folder true)).run shelf = (.ok es, t) ↔
        (entries.mapM (Texture.save · base folder false)).run shelf = (.ok es, t) ∧
          ∀ entry ∈ entries, Present base folder shelf entry) ∧
    (∀ entry : Entry, ¬Present base folder shelf entry →
      ∃ target e, Request.target? ⟨entry, base, folder, true⟩ shelf = .ok target ∧
        (e = .noSuchFile target ∨ e = .notFolder target) ∧
        (Texture.save entry base folder true).run shelf = (.error e, shelf)) ∧
    ∀ (st st' : State) (n : Nat), (collectAndSave scene { o with skipTextures := true } h path).run st = (.ok n, st') →
        (collectAndSave scene { o with skipTextures := false } h path).run st = (.ok n, st') :=
  ⟨fun _ _ _ => skips_iff, fun _ => run_save_of_absent, fun st st' n => within_collectAndSave scene o h path st n st'⟩

/-- A file that is there is overwritten, and one that is not there makes the export fail. -/
theorem skipped_textures_are_saved_or_missed_noise :
    let kept : Shelf := { noiseShelf with files := noiseShelf.files.put "a/Assets/Noise.png" [7] }
    ((Texture.save ⟨"Noise", 0, "SRGB"⟩ "a" "Assets" true).run kept).2.files.contents.get? "a/Assets/Noise.png" = some [1] ∧
    ((Texture.save ⟨"Noise", 0, "SRGB"⟩ "a" "Assets" false).run noiseShelf).1.isOk = true ∧
    ∃ e, (Texture.save ⟨"Noise", 0, "SRGB"⟩ "a" "Assets" true).run noiseShelf = (.error e, noiseShelf) := by
  refine ⟨by decide +kernel, by decide +kernel, ?_⟩
  have hAbsent : ¬Present "a" "Assets" noiseShelf ⟨"Noise", 0, "SRGB"⟩ := by
    intro hPresent
    cases hPresent (by decide) _ target?_noise
  obtain ⟨target, e, -, -, hRun⟩ := (skipped_textures_are_saved_or_missed "a" "Assets" noiseShelf {} {} default "").2.1
    _ hAbsent
  exact ⟨e, hRun⟩

end Export

end SceneExchange
