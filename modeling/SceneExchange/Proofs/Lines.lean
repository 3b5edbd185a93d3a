import SceneExchange.Proofs.MeshReferences
import SceneExchange.Proofs.Lists

/-!
# What actors refer to

The lines of an actor, and the instances listed with it, refer to meshes and materials by name. A walk
writes such a line only after it has collected what the line refers to, and it never drops what it has
collected.
-/

namespace SceneExchange.Scene

open Walking List

variable {w w' : Walk} {s : Scene} {lead : String}

/-! ## What a line says -/

section Says

open Text Number

/-- What stands between two texts, in one that starts with the first and ends with the second. -/
def between? (front back : String) (line : List Char) : Option String :=
  if front.toList.isPrefixOf line && back.toList.isSuffixOf line then
    some (String.ofList ((line.drop front.length).take (line.length - front.length - back.length)))
  else none

def meshOf? (line : String) : Option String := between? "\t<mesh name=\"" "\"/>\n" line.toList

def materialOf? (line : String) : Option (Int × String) :=
  (between? "<material id=\"" "\"/>\n" (line.toList.dropWhile (· == '\t'))).bind fun inside =>
    (readInteger? (String.ofList (inside.toList.takeWhile (· != doubleQuote)))).map fun slot =>
      (slot, String.ofList ((inside.toList.dropWhile (· != doubleQuote)).drop 8))

theorem between?_append (front back inside : String) :
    between? front back (front.toList ++ (inside.toList ++ back.toList)) = some inside := by
  have hFront : front.toList.isPrefixOf (front.toList ++ (inside.toList ++ back.toList)) := by simp
  have hBack : back.toList.isSuffixOf (front.toList ++ (inside.toList ++ back.toList)) := by
    rw [isSuffixOf_iff_suffix, ← append_assoc]
    exact suffix_append _ _
  rw [between?, hFront, hBack]
  simp [← String.length_toList]

theorem between?_eq_none {front back : String} {line : List Char} (h : ¬front.toList <+: line) :
    between? front back line = none := by
  have hFront : front.toList.isPrefixOf line = false := by
    rw [Bool.eq_false_iff, ne_eq, isPrefixOf_iff_prefix]
    exact h
  rw [between?, hFront]
  rfl

theorem meshOf?_meshLine (mesh : String) : meshOf? (meshLine mesh) = some mesh := by
  have hText : (meshLine mesh).toList = "\t<mesh name=\"".toList ++ (mesh.toList ++ "\"/>\n".toList) := by simp [meshLine]
  rw [meshOf?, hText, between?_append]

theorem readInteger?_toString_nat (n : Nat) : readInteger? (toString n) = some (n : Int) :=
  readInteger?_toString n

def IsLead (lead : String) : Prop := lead = "\t" ∨ lead = "\t\t\t"

theorem materialOf?_materialLine {lead : String} (hLead : IsLead lead) (i : Nat) (name : String) :
    materialOf? (materialLine lead i name) = some ((i : Int), name) := by
  have hText : (materialLine lead i name).toList.dropWhile (· == '\t') = "<material id=\"".toList ++
      ((toString i ++ "\" name=\"" ++ name).toList ++ "\"/>\n".toList) := by
    obtain rfl | rfl := hLead <;> simp [materialLine]
  have hQuote : ∀ c ∈ (toString i).toList, c != doubleQuote := by
    intro c hc
    have hDigit := isDigit_of_mem_toString hc
    rw [bne_iff_ne]
    rintro rfl
    revert hDigit
    decide
  have hInside : (toString i ++ "\" name=\"" ++ name).toList = (toString i).toList ++
    ("\" name=\"".toList ++ name.toList) := by
    simp
  have hStop : ("\" name=\"".toList ++ name.toList).takeWhile (· != doubleQuote) = [] ∧
      ("\" name=\"".toList ++ name.toList).dropWhile (· != doubleQuote) = "\" name=\"".toList ++ name.toList := by
    simp [doubleQuote]
  rw [materialOf?, hText, between?_append, Option.bind_some, hInside, takeWhile_append_of_pos hQuote,
    dropWhile_append_of_pos hQuote, hStop.1, hStop.2, append_nil, String.ofList_toList,
    readInteger?_toString_nat]
  simp

theorem materialOf?_meshLine (mesh : String) : materialOf? (meshLine mesh) = none := by
  have hNone : between? "<material id=\"" "\"/>\n" ((meshLine mesh).toList.dropWhile (· == '\t')) = none := by
    refine between?_eq_none ?_
    simp [meshLine]
  rw [materialOf?, hNone]
  rfl

theorem meshOf?_materialLine {lead : String} (hLead : IsLead lead) (i : Nat) (name : String) :
    meshOf? (materialLine lead i name) = none := by
  refine between?_eq_none ?_
  obtain rfl | rfl := hLead <;> simp [materialLine]

/-- A line that refers to no mesh and to no material. -/
structure IsPlain (line : String) : Prop where
  mesh : meshOf? line = none
  material : materialOf? line = none

theorem IsFact.exists_name {head : Markup.Head} (h : IsFact head) : ∃ c rest, head.name.toList = c :: rest ∧ c ≠ 'm' := by
  have hNames : ∀ name ∈ ["IntensityUnits", "Color", "Shape", "DepthOfField", "KeyValueProperty"] ++ numberTags,
      ∃ c rest, name.toList = c :: rest ∧ c ≠ 'm' := by
    simp [numberTags]
  cases h with
  | number isNumber => exact hNames _ (mem_append_right _ isNumber)
  | _ => exact hNames _ (by simp)

theorem isPlain_of_tells {line : String} (h : Tells line) : IsPlain line := by
  obtain ⟨head, hFact, gap, -, hText⟩ := h
  obtain ⟨c, rest, hName, hc⟩ := hFact.exists_name
  rw [chars_leaf, hName] at hText
  have hNone : between? "<material id=\"" "\"/>\n" (line.toList.dropWhile (· == '\t')) = none := by
    refine between?_eq_none ?_
    rw [hText]
    simp [hc.symm]
  constructor
  · refine between?_eq_none ?_
    rw [hText]
    simp [hc.symm]
  · rw [materialOf?, hNone]
    rfl

end Says

/-! ## Lines of actors -/

structure ActorHead.Obeys (L M : String → Prop) (h : ActorHead) : Prop where
  fields : ∀ line ∈ h.fields, L line
  meshes : ∀ {mesh ps}, (mesh, ps) ∈ h.instances.entries → M mesh
  materials : ∀ {mesh ps p lines line}, (mesh, ps) ∈ h.instances.entries → p ∈ ps → p.materials = some lines →
    line ∈ lines → L line

def Walk.Heads (Q : ActorHead → Prop) (w : Walk) : Prop :=
  ∀ (n : Nat) (d : ActorDraft), w.drafts[n]? = some d → Q d.head

namespace Walk.Heads

variable {Q : ActorHead → Prop}

theorem of_drafts (h : w.Heads Q) (hDrafts : w'.drafts = w.drafts) : w'.Heads Q := by
  intro n d hd
  rw [hDrafts] at hd
  exact h n d hd

theorem modify (h : w.Heads Q) (place : Nat) {f : ActorDraft → ActorDraft}
    (hf : ∀ d, w.drafts[place]? = some d → Q d.head → Q (f d).head) :
    ({ w with drafts := w.drafts.modify place f } : Walk).Heads Q := by
  intro n d hd
  change (w.drafts.modify place f)[n]? = some d at hd
  rw [Array.getElem?_modify] at hd
  split at hd
  · rename_i hPlace
    subst hPlace
    obtain ⟨d', hd', rfl⟩ := Option.map_eq_some_iff.mp hd
    exact hf d' hd' (h _ d' hd')
  · exact h n d hd

theorem push (h : w.Heads Q) {head : ActorHead} (hHead : Q head) :
    ({ w with drafts := w.drafts.push { head := head } } : Walk).Heads Q := by
  intro n d hd
  change (w.drafts.push _)[n]? = some d at hd
  rw [Array.getElem?_push] at hd
  split at hd
  · cases hd
    exact hHead
  · exact h n d hd

theorem withHead (h : w.Heads Q) (place : Nat) {f : ActorHead → ActorHead} (hf : ∀ head, Q head → Q (f head)) :
    (w.withHead place f).Heads Q :=
  h.modify place fun d _ => hf d.head

end Walk.Heads

def Walk.Obeys (L M : String → Prop) (w : Walk) : Prop := w.Heads (·.Obeys L M)

section Obeys

variable {L L' M M' : String → Prop} {w w' : Walk} {h : ActorHead}

theorem ActorHead.Obeys.of_blank (hBlank : h.instances = .empty ∧ h.fields = []) : h.Obeys L M := by
  obtain ⟨hInstances, hFields⟩ := hBlank
  constructor
  · simp [hFields]
  · simp [hInstances, Table.empty]
  · simp [hInstances, Table.empty]

theorem ActorHead.Obeys.imp (hObeys : h.Obeys L M) (hL : ∀ line, L line → L' line) (hM : ∀ mesh, M mesh → M' mesh) :
    h.Obeys L' M' where
  fields line hLine := hL line (hObeys.fields line hLine)
  meshes hMem := hM _ (hObeys.meshes hMem)
  materials hMem hp hLines hLine := hL _ (hObeys.materials hMem hp hLines hLine)

theorem ActorHead.Obeys.addFields (hObeys : h.Obeys L M) {lines : List String} (hLines : ∀ line ∈ lines, L line) :
    ({ h with fields := h.fields ++ lines } : ActorHead).Obeys L M where
  fields line hLine := by
    obtain hLine | hLine := mem_append.mp hLine
    · exact hObeys.fields line hLine
    · exact hLines line hLine
  meshes := hObeys.meshes
  materials := hObeys.materials

theorem ActorHead.Obeys.list (hObeys : h.Obeys L M) {mesh : String} {ps : List Placed} (hMesh : M mesh)
    (hLines : ∀ {p lines line}, p ∈ ps → p.materials = some lines → line ∈ lines → L line) :
    ({ h with instances := h.instances.insert mesh ps } : ActorHead).Obeys L M where
  fields := hObeys.fields
  meshes hMem := by
    obtain hNew | hOld := Table.mem_insertEntry hMem
    · cases hNew
      exact hMesh
    · exact hObeys.meshes hOld
  materials hMem hp := by
    obtain hNew | hOld := Table.mem_insertEntry hMem
    · cases hNew
      exact hLines hp
    · exact hObeys.materials hOld hp

theorem Walk.Obeys.imp (hObeys : w.Obeys L M) (hL : ∀ line, L line → L' line) (hM : ∀ mesh, M mesh → M' mesh) :
    w.Obeys L' M' :=
  fun n d hd => (hObeys n d hd).imp hL hM

theorem Walk.Obeys.headAt (hObeys : w.Obeys L M) (n : Nat) : (w.headAt n).Obeys L M := by
  unfold Walk.headAt
  cases hd : w.drafts[n]? with
  | some d => exact hObeys n d hd
  | none => exact .of_blank ⟨rfl, rfl⟩

end Obeys

/-- What was collected stays, and only lines that refer to nothing were added. -/
structure Plainly (w w' : Walk) : Prop where
  stock : w'.stock = w.stock
  materials : w'.materials = w.materials
  obeys : ∀ {L M : String → Prop}, (∀ line, IsPlain line → L line) → w.Obeys L M → w'.Obeys L M

instance : IsPreorder Walk Plainly where
  refl _ := ⟨rfl, rfl, fun _ => id⟩
  trans _ _ _ h h' := ⟨h'.stock.trans h.stock, h'.materials.trans h.materials,
    fun hPlain => h'.obeys hPlain ∘ h.obeys hPlain⟩

theorem plainly_of_drafts (hStock : w'.stock = w.stock) (hMaterials : w'.materials = w.materials)
    (hDrafts : w'.drafts = w.drafts) : Plainly w w' :=
  ⟨hStock, hMaterials, fun _ hObeys => hObeys.of_drafts hDrafts⟩

theorem plainly_modify (w : Walk) (place : Nat) {f : ActorDraft → ActorDraft}
    (hf : ∀ {L M : String → Prop} (d : ActorDraft), (∀ line, IsPlain line → L line) → d.head.Obeys L M →
      (f d).head.Obeys L M) : Plainly w { w with drafts := w.drafts.modify place f } :=
  ⟨rfl, rfl, fun hPlain hObeys => hObeys.modify place fun d _ => hf d hPlain⟩

theorem hanging_plainly : Hanging s Plainly where
  draft _ _ hDrafted := ⟨rfl, rfl, fun _ hObeys => hObeys.push (.of_blank hDrafted.blank)⟩
  named _ _ := plainly_of_drafts rfl rfl rfl
  roots _ _ := plainly_of_drafts rfl rfl rfl
  children w m _ := plainly_modify w m fun _ _ => id

theorem plainly_turned (w : Walk) (n : Nat) (transform : String) : Plainly w (w.turned n transform) :=
  plainly_modify w n fun _ _ hObeys => ⟨hObeys.fields, hObeys.meshes, hObeys.materials⟩

theorem Described.plainly {n x : Nat} (h : Described s n x w w') (hKind : ¬hasGeometry (s.object x).kind) :
    Plainly w w' := by
  cases h with
  | unnamed isMesh => exact absurd isMesh hKind
  | mesh isMesh => exact absurd isMesh hKind
  | @told d _ _ told =>
    have hTelling : Plainly w (w.withHead n (.telling d)) := plainly_modify w n fun draft hPlain hObeys => by
      have hAdded := hObeys.addFields fun line hLine => hPlain line (isPlain_of_tells (told.fields line hLine))
      exact ⟨hAdded.fields, hAdded.meshes, hAdded.materials⟩
    refine trans_of Plainly hTelling ?_
    exact plainly_of_drafts rfl rfl rfl
  | silent => exact plainly_of_drafts rfl rfl rfl

/-! ## Lines that refer to something -/

inductive Backed (s : Scene) (w : Walk) : String → Prop
  | plain {line : String} (isPlain : IsPlain line) : Backed s w line
  | mesh {mesh : String} (collected : (w.meshes.get? mesh).isSome) : Backed s w (meshLine mesh)
  | material {lead name : String} {i m : Nat} (isLead : IsLead lead) (collected : some m ∈ w.materials)
      (named : Name.legal (s.materialName m) = .ok name) : Backed s w (materialLine lead i name)

theorem Backed.isSome_mesh {line mesh : String} (h : Backed s w line) (hLine : meshOf? line = some mesh) :
    (w.meshes.get? mesh).isSome := by
  cases h with
  | plain isPlain => cases isPlain.mesh.symm.trans hLine
  | mesh collected =>
    rw [meshOf?_meshLine] at hLine
    cases hLine
    exact collected
  | material isLead => cases (meshOf?_materialLine isLead _ _).symm.trans hLine

theorem Backed.exists_material {line name : String} {i : Int} (h : Backed s w line)
    (hLine : materialOf? line = some (i, name)) : ∃ m, some m ∈ w.materials ∧ Name.legal (s.materialName m) = .ok name := by
  cases h with
  | plain isPlain => cases isPlain.material.symm.trans hLine
  | mesh => cases (materialOf?_meshLine _).symm.trans hLine
  | material isLead collected named =>
    rw [materialOf?_materialLine isLead] at hLine
    cases hLine
    exact ⟨_, collected, named⟩

structure Gathers (w w' : Walk) : Prop where
  meshes : w.meshes.IsWithin w'.meshes
  materials : ∀ m ∈ w.materials, m ∈ w'.materials

instance : IsPreorder Walk Gathers where
  refl _ := ⟨id, fun _ => id⟩
  trans _ _ _ h h' := ⟨fun hm => h'.meshes (h.meshes hm), fun m hm => h'.materials m (h.materials m hm)⟩

section Gathers

variable {s : Scene} {w w' : Walk}

theorem Gathers.isSome (h : Gathers w w') {mesh : String} (hMesh : (w.meshes.get? mesh).isSome) :
    (w'.meshes.get? mesh).isSome := by
  obtain ⟨a, ha⟩ := Option.isSome_iff_exists.mp hMesh
  rw [h.meshes ha]
  rfl

theorem Backed.later (h : Gathers w w') {line : String} (hLine : Backed s w line) : Backed s w' line := by
  cases hLine with
  | plain isPlain => exact .plain isPlain
  | mesh collected => exact .mesh (h.isSome collected)
  | material isLead collected named => exact .material isLead (h.materials _ collected) named

theorem Plainly.gathers (h : Plainly w w') : Gathers w w' := by
  have hMeshes : w'.meshes = w.meshes := congrArg Stock.meshes h.stock
  refine ⟨fun hm => ?_, fun m hm => ?_⟩
  · rwa [hMeshes]
  · rwa [h.materials]

def Walk.Refers (s : Scene) (w : Walk) : Prop := w.Obeys (Backed s w) fun mesh => (w.meshes.get? mesh).isSome

theorem Walk.Refers.plainly (hRefers : w.Refers s) (h : Plainly w w') : w'.Refers s := by
  have hObeys := hRefers.imp (fun _ => Backed.later h.gathers) fun _ => h.gathers.isSome
  exact h.obeys (fun _ => .plain) hObeys

theorem Walk.Refers.of_drafts (hRefers : w.Refers s) (h : Gathers w w') (hDrafts : w'.drafts = w.drafts) :
    w'.Refers s :=
  (hRefers.imp (fun _ => Backed.later h) fun _ => h.isSome).of_drafts hDrafts

end Gathers

theorem Walk.Refers.withHead (hRefers : w.Refers s) (place : Nat) {f : ActorHead → ActorHead}
    (hf : ∀ h, h.Obeys (Backed s w) (fun mesh => (w.meshes.get? mesh).isSome) →
      (f h).Obeys (Backed s w) fun mesh => (w.meshes.get? mesh).isSome) : (w.withHead place f).Refers s := by
  have hGathers : Gathers w (w.withHead place f) := ⟨id, fun _ => id⟩
  have hObeys : (w.withHead place f).Obeys _ _ := Walk.Heads.withHead hRefers place hf
  exact hObeys.imp (fun _ => Backed.later hGathers) fun _ => id

theorem backed_of_paints (hLead : IsLead lead) {slots : List MaterialSlot} {ps : List Paint}
    (hPaints : Forall₂ s.Paints (ownSlots slots) ps) :
    ∀ line ∈ ps.map (Paint.line lead), Backed s (w.collecting ps) line := by
  intro line hLine
  obtain ⟨p, hp, rfl⟩ := mem_map.mp hLine
  obtain ⟨x, -, hPaint⟩ := exists_mem_of_forall₂ hPaints hp
  exact .material hLead (Array.mem_append_right _ (by simpa using ⟨p, hp, rfl⟩)) hPaint.name

end SceneExchange.Scene
