import SceneExchange.Files
import SceneExchange.Name
import Mathlib.Data.List.TakeWhile

/-!
# Places of files

The place that a path leads to has the name of the path, so files with different names do not
overwrite each other.
-/

open List

namespace SceneExchange.Path

theorem lastPart_of_notMem {cs : List Char} (h : '/' ∉ cs) : lastPart cs = cs := by
  rw [lastPart, takeWhile_eq_self_iff.mpr, reverse_reverse]
  intro c hc
  simpa using ne_of_mem_of_not_mem (mem_reverse.mp hc) h

theorem lastPart_append_slash (front back : List Char) : lastPart (front ++ '/' :: back) = lastPart back := by
  unfold lastPart
  rw [reverse_append, reverse_cons, append_assoc, takeWhile_append]
  split
  · rename_i hAll
    have hWhole := takeWhile_prefix (l := back.reverse) (· ≠ '/')
    rw [hWhole.eq_of_length hAll]
    simp
  · rfl

theorem exists_lastPart (cs : List Char) : '/' ∉ cs ∨ ∃ front back, cs = front ++ '/' :: back ∧ '/' ∉ back := by
  by_cases h : '/' ∈ cs
  · obtain ⟨back, front, hBack, hNone⟩ := eq_append_cons_of_mem (mem_reverse.mpr h)
    refine .inr ⟨front.reverse, back.reverse, ?_, by simpa using hNone⟩
    simpa using congrArg reverse hBack
  · exact .inl h

theorem parts_eq_concat (path : String) : ∃ front, parts path = front ++ [name path] := by
  obtain hNone | ⟨front, back, hPath, hBack⟩ := exists_lastPart path.toList
  · refine ⟨[], ?_⟩
    simp [parts, name, splitOn_eq_singleton hNone, lastPart_of_notMem hNone]
  · refine ⟨(front.splitOn '/').map String.ofList, ?_⟩
    rw [parts, name, hPath, lastPart_append_slash, lastPart_of_notMem hBack, splitOn_append_cons_self,
      splitOn_eq_singleton hBack, map_append]
    rfl

theorem name_append_slash (front back : String) : name (front ++ "/" ++ back) = name back := by
  have hList : (front ++ "/" ++ back).toList = front.toList ++ '/' :: back.toList := by simp
  rw [name, hList, lastPart_append_slash]
  rfl

theorem name_of_notMem {file : String} (h : '/' ∉ file.toList) : name file = file := by
  rw [name, lastPart_of_notMem h, String.ofList_toList]

theorem name_join (base path : String) : name (join base path) = name path := by
  unfold join
  split
  · rfl
  · split
    · rename_i hEnd
      obtain hEmpty | hSlash := Bool.or_eq_true_iff.mp hEnd
      · have hBase : base = "" := by simpa using hEmpty
        rw [hBase, String.empty_append]
      · obtain ⟨front, hFront⟩ : ∃ front, base = front ++ "/" := by
          exact String.endsWith_char_iff_exists_append.mp hSlash
        rw [hFront, name_append_slash]
    · exact name_append_slash base path

theorem slash_notMem_name (path : String) : '/' ∉ (name path).toList := by
  obtain hNone | ⟨front, back, hPath, hBack⟩ := exists_lastPart path.toList
  · rwa [name, String.toList_ofList, lastPart_of_notMem hNone]
  · rwa [name, String.toList_ofList, hPath, lastPart_append_slash, lastPart_of_notMem hBack]

theorem name_intercalate (front : List String) {last : String} (h : '/' ∉ last.toList) :
    name ("/".intercalate (front ++ [last])) = last := by
  cases front with
  | nil =>
    rw [nil_append, String.intercalate_singleton]
    exact name_of_notMem h
  | cons first rest =>
    rw [String.intercalate_append_of_ne_nil (by simp) (by simp), String.intercalate_singleton, name_append_slash]
    exact name_of_notMem h

def IsFileName (file : String) : Prop := file ≠ "" ∧ file ≠ "." ∧ file ≠ ".."

end SceneExchange.Path

namespace SceneExchange.Files

variable {f f' f'' : Files} {path other place : String} {bytes : List UInt8}

theorem follow_concat (here front : List String) {last : String} (hLast : Path.IsFileName last) {r : List String}
    (h : f.follow path here (front ++ [last]) = .ok r) : ∃ rest, r = last :: rest := by
  induction front generalizing here with
  | nil =>
    obtain ⟨hEmpty, hDot, hDots⟩ := hLast
    rw [nil_append, follow] at h
    simp only [beq_iff_eq, Bool.or_eq_true, hEmpty, hDot, hDots, or_self, if_false] at h
    split at h
    · cases h
    · cases h
      exact ⟨here, rfl⟩
  | cons part front ih =>
    rw [cons_append, follow] at h
    split at h
    · exact ih _ h
    · split at h
      · cases h
      · split at h <;> exact ih _ h

theorem name_of_resolve (hName : Path.IsFileName (Path.name path)) (h : f.resolve path = .ok place) :
    Path.name place = Path.name path := by
  obtain ⟨front, hParts⟩ := Path.parts_eq_concat path
  obtain ⟨r, hFollow, ⟨⟩⟩ := bind_eq_ok.mp h
  rw [hParts] at hFollow
  obtain ⟨rest, rfl⟩ := follow_concat [] front hName hFollow
  rw [reverse_cons]
  exact Path.name_intercalate _ (Path.slash_notMem_name path)

theorem toOption_follow_of_folders (hFolders : f'.folders = f.folders) (here parts : List String) :
    (f'.follow path here parts).toOption = (f.follow path here parts).toOption := by
  induction parts generalizing here with
  | nil => rfl
  | cons part parts ih =>
    rw [follow, follow, isFolder, isFolder, hFolders]
    split
    · exact ih _
    · split
      · rfl
      · split <;> exact ih _

theorem resolve?_of_folders (hFolders : f'.folders = f.folders) (path : String) : f'.resolve? path = f.resolve? path := by
  have hResolve (f : Files) : f.resolve? path = (f.follow path [] (Path.parts path)).toOption.map
    ("/".intercalate ·.reverse) := by
    rw [resolve?, resolve]
    cases f.follow path [] (Path.parts path) <;> rfl
  rw [hResolve, hResolve, toOption_follow_of_folders hFolders]

theorem resolve_of_folders (hFolders : f'.folders = f.folders) (h : f.resolve path = .ok place) :
    f'.resolve path = .ok place :=
  eq_ok_of_toOption ((resolve?_of_folders hFolders path).trans (congrArg Except.toOption h))

theorem write_eq_ok (h : f.write path bytes = .ok f') : ∃ place, f.resolve path = .ok place ∧
    f.isFolder place = false ∧ f' = { f with contents := f.contents.insert place bytes } := by
  obtain ⟨place, hPlace, h⟩ := bind_eq_ok.mp h
  split at h
  · cases h
  · rename_i hFile
    split at h
    · cases h
    · cases h
      exact ⟨place, hPlace, by simpa using hFile, rfl⟩

theorem read_eq_ok : f.read path = .ok bytes ↔ ∃ place, f.resolve path = .ok place ∧ f.isFolder place = false ∧
    f.contents.get? place = some bytes := by
  unfold read
  cases hPlace : f.resolve path with
  | error e => simp [bind, Except.bind]
  | ok place =>
    dsimp only [bind, Except.bind]
    cases hFile : f.isFolder place with
    | true => simp [hFile, throw, throwThe, MonadExceptOf.throw]
    | false => cases hGet : f.contents.get? place <;>
      simp [hFile, hGet, pure, Except.pure, throw, throwThe, MonadExceptOf.throw]

theorem read_of_write (h : f.write path bytes = .ok f') : f'.read path = .ok bytes := by
  obtain ⟨place, hPlace, hFile, rfl⟩ := write_eq_ok h
  refine read_eq_ok.mpr ⟨place, ?_, hFile, Table.get?_insert_self ..⟩
  exact resolve_of_folders (f := f) rfl hPlace

theorem copy_eq_ok {source : String} (h : f.copy source path = .ok f') :
    ∃ bytes, f.read source = .ok bytes ∧ f.write path bytes = .ok f' := by
  unfold copy at h
  split at h
  · cases h
  · exact bind_eq_ok.mp h

structure Spares (kept : String → Prop) (f f' : Files) : Prop where
  folders : f'.folders = f.folders
  contents : ∀ place, kept (Path.name place) → f'.contents.get? place = f.contents.get? place

namespace Spares

variable {kept : String → Prop}

theorem refl (kept : String → Prop) (f : Files) : Spares kept f f := ⟨rfl, fun _ _ => rfl⟩

theorem trans (h : Spares kept f f') (h' : Spares kept f' f'') : Spares kept f f'' :=
  ⟨h'.folders.trans h.folders, fun place hKept => (h'.contents place hKept).trans (h.contents place hKept)⟩

theorem write (hFile : Path.IsFileName (Path.name path)) (hOther : ¬kept (Path.name path))
    (h : f.write path bytes = .ok f') : Spares kept f f' := by
  obtain ⟨place, hPlace, -, rfl⟩ := write_eq_ok h
  refine ⟨rfl, fun place' hKept => Table.get?_insert_of_ne _ ?_ _⟩
  rintro rfl
  rw [name_of_resolve hFile hPlace] at hKept
  exact hOther hKept

theorem copy {source : String} (hFile : Path.IsFileName (Path.name path)) (hOther : ¬kept (Path.name path))
    (h : f.copy source path = .ok f') : Spares kept f f' := by
  obtain ⟨bytes, -, hWrite⟩ := copy_eq_ok h
  exact .write hFile hOther hWrite

theorem read (h : Spares kept f f') (hFile : Path.IsFileName (Path.name path)) (hKept : kept (Path.name path))
    (hRead : f.read path = .ok bytes) : f'.read path = .ok bytes := by
  obtain ⟨place, hPlace, hPlain, hGet⟩ := read_eq_ok.mp hRead
  refine read_eq_ok.mpr ⟨place, resolve_of_folders h.folders hPlace, ?_, ?_⟩
  · rwa [isFolder, h.folders]
  · rwa [h.contents place (by rwa [name_of_resolve hFile hPlace])]

end Spares

end SceneExchange.Files
