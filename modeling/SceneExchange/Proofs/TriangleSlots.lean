import SceneExchange.Proofs.MeshFile
import SceneExchange.Proofs.Refinement
import SceneExchange.Proofs.Simulation

/-!
# The materials of imported triangles

A triangle names a number, and the slot of this number holds the last material that was entered under
it. A triangle keeps its slot in one byte, so that only the first 256 slots can be told apart.
-/

open List Option

namespace SceneExchange.Import

open Importing Recursive StaticMesh

abbrev Entries := List (Int × String × String)

/-- The material that a part of a static mesh enters, under its number. -/
def entryOf? (e : Element) : Option (Int × String × String) :=
  if e.1.name = "Material" then do
    let id ← e.1.attribute? "id"
    let name ← e.1.attribute? "name"
    pure (← Number.readInteger? id, id, name)
  else none

def lastMaterial? (entries : Entries) (number : Int) : Option (String × String) :=
  entries.reverse.lookup number

theorem lastMaterial?_append {entries : Entries} {n k : Int} {x : String × String} :
    lastMaterial? (entries ++ [(n, x)]) k = if k = n then some x else lastMaterial? entries k := by
  simp only [lastMaterial?, reverse_append, reverse_singleton, singleton_append, lookup_cons]
  split <;> simp_all

namespace StaticMesh

structure Assigns (m : StaticMesh) (entries : Entries) : Prop where
  zero : m.slots.get? 0 = some 0
  known : ∀ k, (m.slots.get? k).isSome ↔ k = 0 ∨ (lastMaterial? entries k).isSome
  holds : ∀ {k : Int} {i : Nat}, m.slots.get? k = some i → m.materials[i]? = some (lastMaterial? entries k)
  apart : ∀ {k k' : Int} {i : Nat}, m.slots.get? k = some i → m.slots.get? k' = some i → k = k'
  size_le : m.materials.size ≤ entries.length + 1

theorem assigns_nil (name : String) : Assigns { name := name } [] := by
  have hGet (k : Int) : (⟨[(0, 0)]⟩ : Table Int Nat).get? k = if k = 0 then some 0 else none := by
    rw [Table.get?, lookup_cons]
    split <;> simp_all
  refine ⟨rfl, fun k => ?_, @fun k i h => ?_, @fun k k' i h h' => ?_, Nat.le_refl _⟩
  · simp [hGet, lastMaterial?]
  · rw [hGet] at h
    grind [lastMaterial?]
  · rw [hGet] at h h'
    grind

variable {m : StaticMesh} {entries : Entries}

theorem Assigns.lt (h : m.Assigns entries) {k : Int} {i : Nat} (hSlot : m.slots.get? k = some i) : i < m.materials.size :=
  (Array.getElem?_eq_some_iff.mp (h.holds hSlot)).1

theorem Assigns.addMaterial (h : m.Assigns entries) (id name : String) (n : Int) :
    (m.addMaterial id name n).Assigns (entries ++ [(n, id, name)]) := by
  obtain ⟨slot, hGet, hAt, hNew⟩ : ∃ slot,
      (∀ k, (m.addMaterial id name n).slots.get? k = if k = n then some slot else m.slots.get? k) ∧
      (∀ i, (m.addMaterial id name n).materials[i]? = if i = slot then some (some (id, name)) else m.materials[i]?) ∧
      (m.slots.get? n = some slot ∨ m.slots.get? n = none ∧ slot = m.materials.size) := by
    rw [StaticMesh.addMaterial]
    cases hn : m.slots.get? n with
    | some slot =>
      refine ⟨slot, fun k => ?_, fun i => ?_, .inl rfl⟩
      · grind
      · have := h.lt hn
        grind
    | none =>
      refine ⟨m.materials.size, fun k => ?_, fun i => Array.getElem?_push, .inr ⟨rfl, rfl⟩⟩
      by_cases hkn : k = n
      · simp [hkn]
      · exact (Table.get?_insert_of_ne _ hkn _).trans (if_neg hkn).symm
  have hOther {k : Int} {i : Nat} (hkn : k ≠ n) (hk : m.slots.get? k = some i) : i ≠ slot := by
    rintro rfl
    exact hNew.elim (fun hn => hkn (h.apart hk hn)) fun hn => Nat.ne_of_lt (h.lt hk) hn.2
  refine ⟨?_, fun k => ?_, @fun k i hk => ?_, @fun k k' i hk hk' => ?_, ?_⟩
  · have := h.zero
    grind
  · rw [hGet, lastMaterial?_append]
    split
    · simp
    · exact h.known k
  · rw [hGet] at hk
    rw [lastMaterial?_append, hAt]
    split at hk
    · simp_all
    · rw [if_neg (hOther ‹_› hk), if_neg ‹_›]
      exact h.holds hk
  · rw [hGet] at hk hk'
    grind [h.apart]
  · have := h.size_le
    rw [StaticMesh.addMaterial]
    split <;> simp <;> omega

theorem Assigns.meshPart {folder : String} {m' : StaticMesh} {e : Element} (h : m.Assigns entries)
    (hPart : meshPart? folder m e = some m') : m'.Assigns (entries ++ (entryOf? e).toList) := by
  rw [meshPart?] at hPart
  split at hPart
  · rename_i hName
    simp only [Option.bind_eq_bind, Option.bind_eq_some_iff, Option.pure_def, Option.some.injEq] at hPart
    obtain ⟨-, -, id, hId, name, hTitle, n, hNumber, rfl⟩ := hPart
    simpa [entryOf?, hName, hId, hTitle, hNumber] using h.addMaterial id name n
  · rename_i hName
    simp only [Option.bind_eq_bind, Option.bind_eq_some_iff, Option.pure_def, Option.some.injEq] at hPart
    obtain ⟨-, -, path, -, rfl⟩ := hPart
    simpa [entryOf?, hName] using ⟨h.zero, h.known, h.holds, h.apart, h.size_le⟩
  · rename_i hName _
    obtain rfl := Option.some.inj hPart
    rw [show entryOf? e = none from if_neg hName]
    simpa using h

theorem Assigns.foldlM {folder : String} {m' : StaticMesh} {es : List Element} (h : m.Assigns entries)
    (hParts : es.foldlM (meshPart? folder) m = some m') :
    m'.Assigns (entries ++ es.filterMap entryOf?) := by
  induction es generalizing m entries with
  | nil =>
    obtain rfl := Option.some.inj hParts
    simpa using h
  | cons e es ih =>
    obtain ⟨m₁, hPart, hRest⟩ := Option.bind_eq_some_iff.mp hParts
    have hRest := ih (h.meshPart hPart) hRest
    cases hEntry : entryOf? e <;> simpa [hEntry] using hRest

end StaticMesh

/-- The slots of a mesh after the given materials were entered, and those of its triangles. -/
structure Slotted (entries : Entries) (m : StaticMesh) (mesh : Stage.Mesh) : Prop where
  holds : ∀ {k : Int} {x : String × String}, lastMaterial? entries k = some x → m.materials[m.slotOf k]? = some (some x)
  unknown : ∀ {k : Int}, lastMaterial? entries k = none → m.slotOf k = 0
  apart : ∀ {k k' : Int}, (lastMaterial? entries k).isSome → (lastMaterial? entries k').isSome →
    m.slotOf k = m.slotOf k' → k = k'
  triangles : ∃ slots, mesh.polygons.materials = some slots ∧ slots.length = mesh.polygonCount ∧
    ∀ (i : Nat) (slot : UInt8), slots[i]? = some slot → ∃ w, (m.loaded.materials.getD [])[i]? = some w ∧
      slot.toNat = m.slotOf (signed w) % 256
  few : entries.length < 256 → ∀ k, m.slotOf k < 256
  /-- Linking gives the slots the materials of the scene and leaves the triangles as they are. -/
  linked : ∀ (p : Place) (s : State), s.stage.meshes[m.made]? = some mesh → ∃ t materials,
    result (linkMesh m) p s = (.ok (), t) ∧ t.stage.meshes[m.made]? = some { mesh with materials := materials } ∧
    ∀ {k : Int} {x : String × String}, lastMaterial? entries k = some x →
      materials[m.slotOf k]? = some ((s.parts.materials.get? x.2).bind (·.made))

theorem slotted_of_mesh? {entries : Entries} {m : StaticMesh} {mesh : Stage.Mesh}
    (h : m.Assigns entries) (hMesh : mesh? m = some mesh) : Slotted entries m mesh := by
  have hHolds {k : Int} {x : String × String} (hLast : lastMaterial? entries k = some x) :
      m.slots.get? k = some (m.slotOf k) ∧ m.materials[m.slotOf k]? = some (some x) := by
    obtain ⟨i, hi⟩ := isSome_iff_exists.mp ((h.known k).mpr (.inr (by simp [hLast])))
    have hSlot : m.slotOf k = i := by rw [slotOf, hi]; rfl
    rw [hSlot]
    exact ⟨hi, hLast ▸ h.holds hi⟩
  refine ⟨fun hLast => (hHolds hLast).2, @fun k hLast => ?_, @fun k k' hk hk' hSame => ?_, ?_, fun hFew k => ?_,
    fun p s hPlace => ?_⟩
  · cases hk : m.slots.get? k with
    | none => rw [slotOf, hk]; rfl
    | some i =>
      obtain rfl | hSome := (h.known k).mp (by simp [hk])
      · rw [slotOf, h.zero]; rfl
      · simp [hLast] at hSome
  · obtain ⟨x, hx⟩ := isSome_iff_exists.mp hk
    obtain ⟨x', hx'⟩ := isSome_iff_exists.mp hk'
    exact h.apart (hHolds hx).1 (hSame ▸ (hHolds hx').1)
  · obtain ⟨slots, hSlots, hRest⟩ := Option.bind_eq_some_iff.mp hMesh
    obtain rfl := Option.some.inj hRest
    rw [triangleSlots] at hSlots
    split at hSlots
    · cases hSlots
    · obtain rfl := Option.some.inj hSlots
      refine ⟨_, rfl, by simp; omega, fun i slot hi => ?_⟩
      rw [getElem?_map, getElem?_take] at hi
      split at hi
      · obtain ⟨w, hw, rfl⟩ := map_eq_some_iff.mp hi
        exact ⟨w, hw, by simp⟩
      · cases hi
  · cases hk : m.slots.get? k with
    | none => simp [slotOf, hk]
    | some i =>
      have := h.lt hk
      have := h.size_le
      simp only [slotOf, hk, getD_some]
      omega
  · refine ⟨_, m.materials.map (·.bind fun x => (s.parts.materials.get? x.2).bind (·.made)), rfl, ?_, fun hLast => ?_⟩
    · dsimp only
      rw [Array.getElem?_modify, if_pos rfl, hPlace]
      rfl
    · simp [(hHolds hLast).2]

/-- A static mesh that is read is made with the slots of the materials that were entered, and its triangles
have the slots of their numbers up to a multiple of 256. -/
theorem triangle_slots_of_staticMesh {p : Place} {e : Element} {rest : List Mark} {s t : State}
    (hDistinct : Distinct (⟨false, e.1⟩ :: marksInside e rest)) (hMarks : s.marks = marksInside e rest)
    (hRun : result (staticMesh e.1) p s = (.ok (), t)) :
    ∃ name m mesh path bytes, e.1.attribute? "name" = some name ∧ t.parts.meshes.get? name = some m ∧
      t.stage.meshes[m.made]? = some mesh ∧ m.path = some path ∧ p.files.read path = .ok bytes ∧
      m.loaded = (Mesh.read bytes).2 ∧ Slotted ((elements e.2).filterMap entryOf?) m mesh := by
  obtain ⟨w, log, hAnswer, rfl⟩ := ((scans_staticMesh e).reads rest hDistinct).eq_some hMarks hRun
  obtain ⟨⟨found, _⟩, hLift, hAdds⟩ := Option.bind_eq_some_iff.mp hAnswer
  obtain ⟨_, hFound, ⟨⟩⟩ := Option.bind_eq_some_iff.mp hLift
  replace hFound : staticMesh? p e = some found := hFound
  replace hAdds : addMesh found s.world = some ((), w) := hAdds
  rw [addMesh, placeMesh] at hAdds
  cases hMesh : mesh? found.2 with
  | none =>
    rw [hMesh] at hAdds
    cases hAdds
  | some mesh =>
    rw [hMesh] at hAdds
    cases hAdds
    simp only [staticMesh?, Option.bind_eq_bind, Option.bind_eq_some_iff, Option.pure_def, Option.some.injEq] at hFound
    obtain ⟨name, hName, m, hParts, path, hPath, bytes, hBytes, -, -, rfl⟩ := hFound
    have hAssigns := (assigns_nil name).foldlM hParts
    refine ⟨name, _, mesh, path, bytes, hName, Table.get?_insert_self .., Array.getElem?_push_size, hPath, ?_, rfl, ?_⟩
    · cases hRead : p.files.read path <;> simp_all [Except.toOption]
    · exact slotted_of_mesh? ⟨hAssigns.zero, hAssigns.known, hAssigns.holds, hAssigns.apart, hAssigns.size_le⟩ hMesh

section Sample

def cube : Element :=
  (⟨0, "StaticMesh", [("name", "Cube")]⟩, [.element ⟨1, "file", [("path", "Cube")]⟩ [],
    .element ⟨2, "Material", [("id", "2"), ("name", "Red")]⟩ [],
    .element ⟨3, "Material", [("id", "7"), ("name", "Blue")]⟩ [],
    .element ⟨4, "Material", [("id", "2"), ("name", "Green")]⟩ []])

def cubePlace : Place := { files := { contents := ⟨[("Cube", Mesh.file "Cube" Mesh.sampleRaw)]⟩ } }

theorem triangle_slots_of_cube :
    ∃ t m mesh, result (staticMesh cube.1) cubePlace { marks := marksInside cube [] } = (.ok (), t) ∧
      t.parts.meshes.get? "Cube" = some m ∧ Slotted [(2, "2", "Red"), (7, "7", "Blue"), (2, "2", "Green")] m mesh ∧
      m.materials[m.slotOf 2]? = some (some ("2", "Green")) := by
  have hOk : (result (staticMesh cube.1) cubePlace { marks := marksInside cube [] }).1.isOk = true := by decide +kernel
  obtain ⟨⟨⟩, hRun⟩ := Material.exists_ok_of_isOk hOk
  obtain ⟨_, m, mesh, -, -, hName, hFound, -, -, -, -, hSlotted⟩ :=
    @triangle_slots_of_staticMesh cubePlace cube [] _ _ (by decide) rfl hRun
  obtain rfl := Option.some.inj hName
  rw [show (elements cube.2).filterMap entryOf? = [(2, "2", "Red"), (7, "7", "Blue"), (2, "2", "Green")] by
    decide +kernel] at hSlotted
  exact ⟨_, m, mesh, hRun, hFound, hSlotted, hSlotted.holds rfl⟩

end Sample

end SceneExchange.Import
