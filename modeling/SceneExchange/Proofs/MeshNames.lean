import SceneExchange.Proofs.Ends
import Mathlib.Data.List.Nodup
import Mathlib.Data.List.Perm.Subperm

/-!
# Names of meshes

A mesh is named after what an object contains and collected under the legal form of that name from
the first object that asks for it. Whoever asks under the same name later is referred to this mesh.
-/

open List Option

namespace SceneExchange.Table

variable {κ α : Type} [BEq κ]

def IsWithin (t t' : Table κ α) : Prop := ∀ {k : κ} {a : α}, t.get? k = some a → t'.get? k = some a

def IsInjective (t : Table κ α) : Prop := ∀ {k k' : κ} {a : α}, t.get? k = some a → t.get? k' = some a → k = k'

variable [LawfulBEq κ] {t : Table κ α} {k : κ} {a : α}

theorem isWithin_insert (hNew : t.get? k = none) : t.IsWithin (t.insert k a) := by
  intro k' b hb
  have hNe : k' ≠ k := by
    rintro rfl
    exact absurd (hNew.symm.trans hb) (by simp)
  exact (get?_insert_of_ne t hNe a).trans hb

theorem isInjective_insert (h : t.IsInjective) (hFree : a ∉ t.values) : (t.insert k a).IsInjective := by
  have hValue {k' : κ} {b : α} (hb : t.get? k' = some b) : b ∈ t.values :=
    mem_map.mpr ⟨_, mem_of_lookup hb, rfl⟩
  intro k₁ k₂ b h₁ h₂
  by_cases hk₁ : k₁ = k <;> by_cases hk₂ : k₂ = k
  · rw [hk₁, hk₂]
  · subst hk₁
    rw [get?_insert_self] at h₁
    rw [get?_insert_of_ne t hk₂] at h₂
    cases h₁
    exact absurd (hValue h₂) hFree
  · subst hk₂
    rw [get?_insert_self] at h₂
    rw [get?_insert_of_ne t hk₁] at h₁
    cases h₂
    exact absurd (hValue h₁) hFree
  · rw [get?_insert_of_ne t hk₁] at h₁
    rw [get?_insert_of_ne t hk₂] at h₂
    exact h h₁ h₂

end SceneExchange.Table

namespace SceneExchange.Scene

open Walking

variable {s : Scene} {w : Walk} {x : Nat} {title : String}

/-! ## Labels of libraries -/

def triedLabel (base : String) (n : Nat) : String := if n = 0 then base else base ++ toString n ++ "_"

theorem toString_injective : Function.Injective (toString : Nat → String) := by
  intro m n h
  have hDigits : Nat.toDigits 10 m = Nat.toDigits 10 n := String.ofList_injective h
  rw [← Nat.ofDigitChars_toDigits (b := 10) (n := m) (by omega) (by omega), hDigits,
    Nat.ofDigitChars_toDigits (by omega) (by omega)]

theorem triedLabel_injective (base : String) : Function.Injective (triedLabel base) := by
  have hLonger (n : Nat) : base ≠ base ++ toString n ++ "_" := by
    intro h
    have hLength := congrArg String.length h
    have hLast : "_".length = 1 := rfl
    simp only [String.length_append, hLast] at hLength
    omega
  intro m n h
  unfold triedLabel at h
  split at h <;> split at h
  · omega
  · exact absurd h (hLonger n)
  · exact absurd h.symm (hLonger m)
  · have hList := congrArg String.toList h
    simp only [String.toList_append, append_assoc] at hList
    have hDigits := append_cancel_right (append_cancel_left hList)
    exact toString_injective (String.toList_injective hDigits)

theorem freeLabel_succ (base : String) (taken : List String) (fuel n : Nat) : freeLabel base taken (fuel + 1) n =
      if triedLabel base n ∈ taken then freeLabel base taken fuel (n + 1) else triedLabel base n := by
  by_cases h : triedLabel base n ∈ taken
  · rw [if_pos h]
    exact if_pos (contains_iff_mem.mpr h)
  · rw [if_neg h]
    exact if_neg fun hTaken => h (contains_iff_mem.mp hTaken)

theorem exists_of_freeLabel (base : String) (taken : List String) {fuel n : Nat} (h : 0 < n + fuel) :
    ∃ k, freeLabel base taken fuel n = triedLabel base k ∧ (triedLabel base k ∈ taken → k = n + fuel) ∧
      ∀ j, n ≤ j → j < k → triedLabel base j ∈ taken := by
  induction fuel generalizing n with
  | zero =>
    refine ⟨n, ?_, fun _ => rfl, fun j hn hk => by omega⟩
    rw [triedLabel, if_neg (by omega)]
    rfl
  | succ fuel ih =>
    rw [freeLabel_succ]
    split
    · rename_i hTaken
      obtain ⟨k, hLabel, hEnd, hTried⟩ := ih (n := n + 1) (by omega)
      refine ⟨k, hLabel, fun hk => by rw [hEnd hk]; omega, fun j hn hk => ?_⟩
      by_cases hHere : j = n
      · subst hHere
        exact hTaken
      · exact hTried j (by omega) hk
    · rename_i hFree
      exact ⟨n, rfl, (absurd · hFree), fun j hn hk => by omega⟩

/-- The search ends at the first label that is free, after no more trials than there are labels. -/
theorem freeLabel_first (base : String) (taken : List String) : ∃ n ≤ taken.length,
    freeLabel base taken (taken.length + 1) 0 = triedLabel base n ∧ triedLabel base n ∉ taken ∧
      ∀ k < n, triedLabel base k ∈ taken := by
  obtain ⟨n, hLabel, hEnd, hTried⟩ := exists_of_freeLabel base taken (show 0 < 0 + (taken.length + 1) by omega)
  have hSubset : (List.range n).map (triedLabel base) ⊆ taken := by
    intro label hMem
    obtain ⟨k, hk, rfl⟩ := mem_map.mp hMem
    exact hTried k (Nat.zero_le k) (by simpa using hk)
  have hNodup : ((List.range n).map (triedLabel base)).Nodup := nodup_range.map (triedLabel_injective base)
  have hLength := (hNodup.subperm hSubset).length_le
  rw [length_map, length_range] at hLength
  exact ⟨n, hLength, hLabel, fun hTaken => by have := hEnd hTaken; omega, fun k => hTried k (Nat.zero_le k)⟩

theorem freeLabel_notMem (base : String) (labels : Table Nat String) :
    freeLabel base labels.values (labels.size + 1) 0 ∉ labels.values := by
  obtain ⟨n, -, hLabel, hFree, -⟩ := freeLabel_first base labels.values
  rw [show labels.size = labels.values.length by simp [Table.values, Table.size], hLabel]
  exact hFree

/-- Gives a library its label, unless it has one. -/
def giveLabel (called : Nat → String) (labels : Table Nat String) (library : Nat) : Table Nat String :=
  match labels.get? library with
  | some _ => labels
  | none => labels.insert library (freeLabel (called library) labels.values (labels.size + 1) 0)

section Labels

variable (called : Nat → String)

theorem isWithin_giveLabel (labels : Table Nat String) (library : Nat) :
    labels.IsWithin (giveLabel called labels library) := by
  unfold giveLabel
  split
  · exact id
  · exact Table.isWithin_insert ‹_›

theorem isInjective_giveLabel {labels : Table Nat String} (h : labels.IsInjective) (library : Nat) :
    (giveLabel called labels library).IsInjective := by
  unfold giveLabel
  split
  · exact h
  · exact Table.isInjective_insert h (freeLabel_notMem _ labels)

theorem isWithin_giveLabels (libraries : List Nat) (labels : Table Nat String) :
    labels.IsWithin (libraries.foldl (giveLabel called) labels) := by
  induction libraries generalizing labels with
  | nil => exact id
  | cons l libraries ih => exact fun h => ih _ (isWithin_giveLabel called labels l h)

theorem isInjective_giveLabels (libraries : List Nat) {labels : Table Nat String} (h : labels.IsInjective) :
    (libraries.foldl (giveLabel called) labels).IsInjective := by
  induction libraries generalizing labels with
  | nil => exact h
  | cons l libraries ih => exact ih (isInjective_giveLabel called h l)

end Labels

/-! ## Titles -/

/-- What a walk knows of meshes. -/
structure Stock where
  known : Table String Bool
  meshes : Table String Mesh.Asset
  labels : Table Nat String

def Walk.stock (w : Walk) : Stock := ⟨w.known, w.meshes, w.labels⟩

/-- The name of what an object contains, and the library that it is from. -/
def content? (s : Scene) (o : Object) : Option (String × Option Nat) :=
  match o.content with
  | .nothing => none
  | .mesh m => some ((s.mesh m).name, (s.mesh m).library)
  | .settings i => some ((s.settings[i]?.getD default).name, none)

def fullTitle? (s : Scene) (labels : Table Nat String) (o : Object) : Option String :=
  (s.content? o).bind fun (name, library) =>
    let name := if o.modifiers = 0 then name else o.name ++ "_" ++ name
    match library with
    | some l => (labels.get? l).map (· ++ name)
    | none => some name

/-- The name under which the mesh of an object is collected: the label of the library, the name of the object
if it has modifiers, and the name of what it contains, in legal form. -/
def title? (s : Scene) (labels : Table Nat String) (x : Nat) : Option String :=
  (s.object x).source.bind fun source => (s.fullTitle? labels (s.object source)).bind fun full =>
    (Name.legal full).toOption

def shapeOf (s : Scene) (x : Nat) : Except Fault (Option Mesh.Shape) :=
  match (s.object x).evaluated, (s.object x).content with
  | some m, _ => .ok (m.map s.mesh)
  | none, .nothing => .ok none
  | none, .mesh m => .ok (some (s.mesh m))
  | none, .settings _ => .error (.noProperty "Data" "polygons")

/-- The mesh of the geometry of an object, if it has any. -/
def assetOf (s : Scene) (x : Nat) (title : String) : Except Fault (Option Mesh.Asset) := do
  match ← s.shapeOf x with
  | none => pure none
  | some shape =>
    if shape.polygons = 0 then pure none
    else
      let names ← Mesh.materialNames (shape.materials.map fun m => m.map s.materialName)
      let raw ← Mesh.Raw.ofShape shape
      pure (some ⟨title, names, raw⟩)

def called (s : Scene) (library : Nat) : String :=
  libraryLabel s.cleanName (s.libraries[library]?.getD "")

/-- The walk after libraries were given labels. -/
def Walk.giving (s : Scene) (libraries : List Nat) (w : Walk) : Walk :=
  { w with labels := libraries.foldl (giveLabel s.called) w.labels }

/-! ## The two halves of naming a mesh -/

namespace Walking

def fullName (o : Object) : Walking String := do
  let (name, library) ← contentName o
  let name := if o.modifiers = 0 then name else o.name ++ "_" ++ name
  match library with
  | some l => do pure ((← labelOf l) ++ name)
  | none => pure name

/-- Looks a mesh up by its name, or collects it from what an object evaluates to. -/
def collect (evaluated o : Object) (name : String) : Walking (Option String) := do
  match (← get).known.get? name with
  | some true => pure (some name)
  | some false => pure none
  | none =>
    let shape ← evaluate evaluated
    match shape with
    | some shape =>
      if shape.polygons = 0 then
        modify fun w => { w with known := w.known.insert name false }
        pure none
      else
        modify fun w => { w with known := w.known.insert name true }
        let asset ← makeAsset name shape
        modify fun w => { w with meshes := w.meshes.insert name asset }
        if o.slots.isEmpty then addMaterial none else o.slots.forM fun slot => addMaterial slot.material
        pure (some name)
    | none =>
      modify fun w => { w with known := w.known.insert name false }
      pure none

theorem meshName_eq (index : Nat) : meshName index = (do
    let s ← read
    let o ← lift (s.demand (s.object index).source "data")
    let full ← fullName o
    let name ← lift (Name.legal full)
    collect (s.object index) o name) := by
  unfold meshName fullName
  simp only [LawfulMonad.bind_assoc]
  congr 1
  funext s
  congr 1
  funext o
  congr 1
  funext content
  obtain ⟨name, library⟩ := content
  cases library with
  | none => rfl
  | some l =>
    change (labelOf l >>= fun label => _) = (labelOf l >>= fun label => _) >>= _
    rw [LawfulMonad.bind_assoc]
    rfl

end Walking

theorem outcome_labelOf (library : Nat) : ∃ label, (giveLabel s.called w.labels library).get? library = some label ∧
    outcome (labelOf library) s w = (.ok label, w.giving s [library]) := by
  rw [labelOf, outcome_get, Walk.giving, foldl_cons, foldl_nil, giveLabel]
  cases hLabel : w.labels.get? library with
  | some label => exact ⟨label, hLabel, rfl⟩
  | none => exact ⟨_, Table.get?_insert_self .., rfl⟩

theorem outcome_fullName (o : Object) : ∃ r libraries, outcome (fullName o) s w = (r, w.giving s libraries) ∧
    r.toOption = s.fullTitle? (w.giving s libraries).labels o ∧
      ((s.fullTitle? w.labels o).isSome → w.giving s libraries = w) := by
  have hContent : outcome (contentName o) s w =
      ((s.content? o).elim (.error (.propertyOfNothing "name")) .ok, w) := by
    unfold contentName Scene.content?
    cases o.content <;> rfl
  unfold fullName Scene.fullTitle?
  cases hFound : s.content? o with
  | none =>
    rw [hFound] at hContent
    exact ⟨_, [], outcome_bind_error hContent, rfl, fun _ => rfl⟩
  | some content =>
    obtain ⟨name, library⟩ := content
    rw [hFound] at hContent
    rw [outcome_bind hContent]
    cases library with
    | none => exact ⟨_, [], rfl, rfl, fun _ => rfl⟩
    | some l =>
      obtain ⟨label, hLabel, hRun⟩ := outcome_labelOf (s := s) (w := w) l
      refine ⟨_, [l], outcome_bind hRun, ?_, fun hKnown => ?_⟩
      · simp [Walk.giving, hLabel]
        rfl
      · obtain ⟨label, hLabel⟩ : ∃ label, w.labels.get? l = some label := by simpa [isSome_iff_exists] using hKnown
        simp [Walk.giving, giveLabel, hLabel]

/-! ## Collecting -/

def slotMaterials (slots : List MaterialSlot) : List (Option Nat) :=
  if slots.isEmpty then [none] else slots.map MaterialSlot.material

/-- The walk after a mesh was collected under a title, or none was found. -/
def Walk.adding (w : Walk) (title : String) (slots : List MaterialSlot) (asset : Option Mesh.Asset) : Walk :=
  { w with
    known := w.known.insert title asset.isSome
    meshes := (asset.map (w.meshes.insert title)).getD w.meshes
    materials := asset.elim w.materials fun _ => w.materials ++ (slotMaterials slots).toArray }

/-- What collecting a mesh under a title comes to. Whoever asks first has the materials of their slots noted. -/
inductive Collects (s : Scene) (x : Nat) (slots : List MaterialSlot) (title : String) (w : Walk) :
    Except Fault (Option String) → Walk → Prop
  | again {b : Bool} (known : w.known.get? title = some b) :
      Collects s x slots title w (.ok (if b then some title else none)) w
  | anew {asset : Option Mesh.Asset} (isNew : w.known.get? title = none) (made : s.assetOf x title = .ok asset) :
      Collects s x slots title w (.ok (asset.map fun _ => title)) (w.adding title slots asset)
  | failed {e : Fault} {known : Table String Bool} (isNew : w.known.get? title = none) :
      Collects s x slots title w (.error e) { w with known }

theorem Collects.labels_eq {slots : List MaterialSlot} {r : Except Fault (Option String)} {w' : Walk}
    (h : Collects s x slots title w r w') : w'.labels = w.labels := by
  cases h <;> rfl

theorem outcome_addMaterials (slots : List MaterialSlot) :
    outcome (slots.forM fun slot => addMaterial slot.material) s w =
      (.ok (), { w with materials := w.materials ++ (slots.map MaterialSlot.material).toArray }) := by
  induction slots generalizing w with
  | nil => simp [outcome]; rfl
  | cons slot slots ih =>
    change outcome (slots.forM fun slot => addMaterial slot.material) s
      { w with materials := w.materials.push slot.material } = _
    rw [ih]
    simp

theorem outcome_makeAsset {shape : Mesh.Shape} (hShape : s.shapeOf x = .ok (some shape)) (hFaces : shape.polygons ≠ 0) :
    ∃ made, outcome (makeAsset title shape) s w = (made, w) ∧ s.assetOf x title = some <$> made := by
  rw [Scene.assetOf, hShape, makeAsset, outcome_read]
  change ∃ made, _ ∧ (if shape.polygons = 0 then _ else _) = _
  rw [if_neg hFaces]
  cases Mesh.materialNames (shape.materials.map fun m => m.map s.materialName) with
  | error e => exact ⟨.error e, rfl, rfl⟩
  | ok names =>
    cases Mesh.Raw.ofShape shape with
    | error e => exact ⟨.error e, rfl, rfl⟩
    | ok raw => exact ⟨.ok ⟨title, names, raw⟩, rfl, rfl⟩

theorem collects_of_collect {o : Object} {r : Except Fault (Option String)} {w' : Walk}
    (hRun : outcome (collect (s.object x) o title) s w = (r, w')) : Collects s x o.slots title w r w' := by
  rw [collect, outcome_get] at hRun
  cases hKnown : w.known.get? title with
  | some b =>
    rw [hKnown] at hRun
    cases b <;> cases hRun <;> exact .again hKnown
  | none =>
    have hEvaluate : outcome (evaluate (s.object x)) s w = (s.shapeOf x, w) := by
      unfold evaluate Scene.shapeOf
      cases (s.object x).evaluated with
      | some m => rfl
      | none => cases (s.object x).content <;> rfl
    rw [hKnown] at hRun
    dsimp only at hRun
    cases hShape : s.shapeOf x with
    | error e =>
      rw [hShape] at hEvaluate
      rw [outcome_bind_error hEvaluate] at hRun
      cases hRun
      exact .failed hKnown
    | ok shape =>
      rw [hShape] at hEvaluate
      rw [outcome_bind hEvaluate] at hRun
      cases shape with
      | none =>
        cases hRun
        exact .anew hKnown (by rw [Scene.assetOf, hShape]; rfl)
      | some shape =>
        dsimp only at hRun
        split at hRun
        · rename_i hEmpty
          cases hRun
          exact .anew hKnown (by rw [Scene.assetOf, hShape]; exact if_pos hEmpty)
        · rename_i hFaces
          have hKeep : outcome (modify fun w => { w with known := w.known.insert title true } : Walking Unit) s w =
              (.ok (), { w with known := w.known.insert title true }) := rfl
          rw [outcome_bind hKeep] at hRun
          obtain ⟨made, hMake, hMade⟩ := outcome_makeAsset (w := { w with known := w.known.insert title true }) hShape hFaces
          cases made with
          | error e =>
            rw [outcome_bind_error hMake] at hRun
            cases hRun
            exact .failed hKnown
          | ok asset =>
            rw [outcome_bind hMake] at hRun
            let u : Walk := { w with known := w.known.insert title true, meshes := w.meshes.insert title asset }
            have hNoted {m : Walking Unit} (hm : outcome m s u =
                (.ok (), { u with materials := u.materials ++ (slotMaterials o.slots).toArray }))
                (hRun : outcome (do m; pure (some title)) s u = (r, w')) : Collects s x o.slots title w r w' := by
              rw [outcome_bind hm] at hRun
              cases hRun
              exact .anew hKnown hMade
            change outcome (if o.slots.isEmpty then _ else _) s u = _ at hRun
            split at hRun
            · refine hNoted ?_ hRun
              rw [slotMaterials, if_pos ‹_›, ← Array.push_eq_append]
              rfl
            · refine hNoted ?_ hRun
              rw [slotMaterials, if_neg ‹_›]
              exact outcome_addMaterials o.slots

/-- What comes of asking for the mesh of an object. -/
inductive Answers (s : Scene) (x : Nat) (w : Walk) : Except Fault (Option String) → Walk → Prop
  | untitled {e : Fault} {libraries : List Nat} (noTitle : s.title? (w.giving s libraries).labels x = none) :
      Answers s x w (.error e) (w.giving s libraries)
  | titled {source : Nat} {libraries : List Nat} {title : String} {r : Except Fault (Option String)} {w' : Walk}
      (isSource : (s.object x).source = some source) (isTitle : s.title? (w.giving s libraries).labels x = some title)
      (isKnown : (s.title? w.labels x).isSome → w.giving s libraries = w)
      (collects : Collects s x (s.object source).slots title (w.giving s libraries) r w') : Answers s x w r w'

theorem answers_of_meshName {r : Except Fault (Option String)} {w' : Walk}
    (hRun : outcome (meshName x) s w = (r, w')) : Answers s x w r w' := by
  rw [meshName_eq, outcome_read] at hRun
  cases hSource : (s.object x).source with
  | none =>
    rw [hSource] at hRun
    cases hRun
    have hNone : s.title? (w.giving s []).labels x = none := by simp [Scene.title?, hSource]
    exact .untitled hNone
  | some source =>
    obtain ⟨full?, libraries, hFull, hTitle, hKept⟩ := outcome_fullName (s := s) (w := w) (s.object source)
    have hDemand : outcome (lift (s.demand (some source) "data")) s w = (.ok (s.object source), w) := rfl
    rw [hSource, outcome_bind hDemand] at hRun
    have hIs : s.title? (w.giving s libraries).labels x = full?.toOption.bind fun full => (Name.legal full).toOption := by
      rw [Scene.title?, hSource, hTitle]
      rfl
    cases full? with
    | error e =>
      rw [outcome_bind_error hFull] at hRun
      cases hRun
      exact .untitled hIs
    | ok full =>
      rw [outcome_bind hFull] at hRun
      cases hLegal : Name.legal full with
      | error e =>
        rw [hLegal] at hRun
        cases hRun
        exact .untitled (by rw [hIs]; simp [Except.toOption, hLegal])
      | ok title =>
        have hName : outcome (lift (Name.legal full)) s (w.giving s libraries) = (.ok title, w.giving s libraries) := by
          rw [hLegal]
          rfl
        rw [outcome_bind hName] at hRun
        refine .titled hSource (by rw [hIs]; simp [Except.toOption, hLegal]) (fun hOld => hKept ?_)
          (collects_of_collect hRun)
        obtain ⟨title', hTitle'⟩ := isSome_iff_exists.mp hOld
        obtain ⟨_, hSource', hFull'⟩ := bind_eq_some_iff.mp hTitle'
        cases hSource.symm.trans hSource'
        obtain ⟨_, hFull', -⟩ := bind_eq_some_iff.mp hFull'
        rw [hFull']
        rfl

theorem title?_of_isWithin {labels labels' : Table Nat String} (h : labels.IsWithin labels')
    (hTitle : s.title? labels x = some title) : s.title? labels' x = some title := by
  obtain ⟨source, hSource, hTitle⟩ := bind_eq_some_iff.mp hTitle
  obtain ⟨full, hFull, hLegal⟩ := bind_eq_some_iff.mp hTitle
  obtain ⟨⟨name, library⟩, hContent, hFull⟩ := bind_eq_some_iff.mp hFull
  have hFull' : s.fullTitle? labels' (s.object source) = some full := by
    cases library with
    | none => simpa [Scene.fullTitle?, hContent] using hFull
    | some l =>
      obtain ⟨label, hLabel, rfl⟩ := map_eq_some_iff.mp hFull
      simp [Scene.fullTitle?, hContent, h hLabel]
  simp [Scene.title?, hSource, hFull', hLegal]

/-! ## The first to ask -/

/-- The first of those who asked that has a title. -/
def first? (s : Scene) (labels : Table Nat String) (asked : List Nat) (title : String) : Option Nat :=
  asked.find? fun x => s.title? labels x = some title

/-- Every mesh in stock is that of the first who asked for it. -/
structure Stocked (s : Scene) (asked : List Nat) (st : Stock) : Prop where
  labels : st.labels.IsInjective
  titled : ∀ x ∈ asked, ∃ title, s.title? st.labels x = some title ∧ (st.known.get? title).isSome
  made : ∀ {title : String} {b : Bool}, st.known.get? title = some b → ∃ y,
    s.first? st.labels asked title = some y ∧ s.assetOf y title = .ok (st.meshes.get? title) ∧
      b = (st.meshes.get? title).isSome
  rest : ∀ {title : String}, st.known.get? title = none → st.meshes.get? title = none

namespace Stocked

variable {s : Scene} {asked : List Nat} {st st' : Stock} {x : Nat} {title : String}

theorem empty (s : Scene) : Stocked s [] ⟨.empty, .empty, .empty⟩ where
  labels := nofun
  titled := by simp
  made := nofun
  rest _ := rfl

theorem title?_eq (h : Stocked s asked st) (hLabels : st.labels.IsWithin st'.labels) (hx : x ∈ asked) :
    s.title? st'.labels x = s.title? st.labels x := by
  obtain ⟨title, hTitle, -⟩ := h.titled x hx
  rw [hTitle, Scene.title?_of_isWithin hLabels hTitle]

theorem first?_eq (h : Stocked s asked st) (hLabels : st.labels.IsWithin st'.labels) (title : String) :
    s.first? st'.labels asked title = s.first? st.labels asked title := by
  have hEach : ∀ x ∈ asked, decide (s.title? st'.labels x = some title) = decide (s.title? st.labels x = some title) := by
    intro x hx
    rw [h.title?_eq hLabels hx]
  unfold Scene.first?
  clear h
  induction asked with
  | nil => rfl
  | cons x asked ih =>
    rw [find?_cons, find?_cons, hEach x mem_cons_self, ih fun y hy => hEach y (mem_cons_of_mem x hy)]

theorem giving {w : Walk} (h : Stocked s asked w.stock) (libraries : List Nat) :
    Stocked s asked (w.giving s libraries).stock where
  labels := isInjective_giveLabels s.called libraries h.labels
  titled x hx := by
    obtain ⟨title, hTitle, hKnown⟩ := h.titled x hx
    exact ⟨title, Scene.title?_of_isWithin (isWithin_giveLabels s.called libraries _) hTitle, hKnown⟩
  made {title b} hKnown := by
    have hLabels : w.stock.labels.IsWithin (w.giving s libraries).stock.labels := isWithin_giveLabels s.called libraries _
    rw [h.first?_eq hLabels]
    exact h.made hKnown
  rest := h.rest

theorem first?_concat_of_some {y : Nat} (h : s.first? st.labels asked title = some y) (x : Nat) :
    s.first? st.labels (asked ++ [x]) title = some y := by
  unfold Scene.first? at h ⊢
  rw [find?_append, h]
  rfl

theorem first?_eq_none (h : Stocked s asked st) (hNew : st.known.get? title = none) :
    s.first? st.labels asked title = none := by
  refine find?_eq_none.mpr fun x hx hTitle => ?_
  obtain ⟨title', hTitle', hKnown⟩ := h.titled x hx
  obtain rfl : title' = title := Option.some.inj (hTitle'.symm.trans (of_decide_eq_true hTitle))
  rw [hNew] at hKnown
  cases hKnown

theorem collects {w w' : Walk} {slots : List MaterialSlot} {answer : Option String} (h : Stocked s asked w.stock)
    (hTitle : s.title? w.stock.labels x = some title) (hCollects : Collects s x slots title w (.ok answer) w') :
    Stocked s (asked ++ [x]) w'.stock ∧ answer = (w'.stock.meshes.get? title).map fun _ => title := by
  cases hCollects with
  | @again b known =>
    refine ⟨⟨h.labels, ?_, ?_, h.rest⟩, ?_⟩
    · intro z hz
      obtain hz | hz := mem_append.mp hz
      · exact h.titled z hz
      · obtain rfl := mem_singleton.mp hz
        exact ⟨title, hTitle, isSome_iff_exists.mpr ⟨b, known⟩⟩
    · intro title' b' hKnown
      obtain ⟨y, hFirst, hMade⟩ := h.made hKnown
      exact ⟨y, first?_concat_of_some hFirst x, hMade⟩
    · obtain ⟨y, -, -, hIs⟩ := h.made known
      rw [hIs]
      cases w.stock.meshes.get? title <;> rfl
  | @anew asset isNew made =>
    have hMeshes : (w.adding title slots asset).stock.meshes.get? title = asset := by
      cases asset with
      | none => exact h.rest isNew
      | some a => exact Table.get?_insert_self ..
    have hOthers {title' : String} (hNe : title' ≠ title) :
        (w.adding title slots asset).stock.meshes.get? title' = w.stock.meshes.get? title' := by
      cases asset with
      | none => rfl
      | some a => exact Table.get?_insert_of_ne w.stock.meshes hNe a
    have hKnown {title' : String} (hNe : title' ≠ title) :
        (w.adding title slots asset).stock.known.get? title' = w.stock.known.get? title' :=
      Table.get?_insert_of_ne w.stock.known hNe _
    have hNow : (w.adding title slots asset).stock.known.get? title = some asset.isSome := Table.get?_insert_self ..
    refine ⟨⟨h.labels, ?_, ?_, ?_⟩, ?_⟩
    · intro z hz
      obtain hz | hz := mem_append.mp hz
      · obtain ⟨title', hTitle', hIs⟩ := h.titled z hz
        refine ⟨title', hTitle', ?_⟩
        by_cases hNe : title' = title
        · rw [hNe, hNow]
          rfl
        · rwa [hKnown hNe]
      · obtain rfl := mem_singleton.mp hz
        exact ⟨title, hTitle, by rw [hNow]; rfl⟩
    · intro title' b hb
      by_cases hNe : title' = title
      · subst hNe
        refine ⟨x, ?_, ?_, ?_⟩
        · have hNone := h.first?_eq_none isNew
          unfold Scene.first? at hNone ⊢
          rw [find?_append]
          change ((asked.find? fun z => s.title? w.stock.labels z = some title').or
            ([x].find? fun z => s.title? w.stock.labels z = some title')) = some x
          rw [hNone]
          simp [hTitle]
        · rw [hMeshes]
          exact made
        · rw [hMeshes]
          exact Option.some.inj (hb.symm.trans hNow)
      · rw [hKnown hNe] at hb
        rw [hOthers hNe]
        obtain ⟨y, hFirst, hMade⟩ := h.made hb
        exact ⟨y, first?_concat_of_some hFirst x, hMade⟩
    · intro title' hb
      by_cases hNe : title' = title
      · rw [hNe, hNow] at hb
        cases hb
      · rw [hOthers hNe]
        rw [hKnown hNe] at hb
        exact h.rest hb
    · rw [hMeshes]

theorem meshes_eq {more : List Nat} (h : Stocked s asked st) (h' : Stocked s (asked ++ more) st')
    (hLabels : st.labels.IsWithin st'.labels) (hx : x ∈ asked) (hTitle : s.title? st.labels x = some title) :
    st'.meshes.get? title = st.meshes.get? title := by
  have hKnown {asked : List Nat} {st : Stock} (h : Stocked s asked st) (hx : x ∈ asked)
      (hTitle : s.title? st.labels x = some title) : ∃ b, st.known.get? title = some b := by
    obtain ⟨title', hTitle', hIs⟩ := h.titled x hx
    obtain rfl : title' = title := Option.some.inj (hTitle'.symm.trans hTitle)
    exact isSome_iff_exists.mp hIs
  obtain ⟨b, hb⟩ := hKnown h hx hTitle
  obtain ⟨b', hb'⟩ := hKnown h' (mem_append_left more hx) (Scene.title?_of_isWithin hLabels hTitle)
  obtain ⟨y, hFirst, hMade, -⟩ := h.made hb
  obtain ⟨y', hFirst', hMade', -⟩ := h'.made hb'
  -- The first to ask stays the first.
  rw [← h.first?_eq hLabels] at hFirst
  unfold Scene.first? at hFirst hFirst'
  rw [find?_append, hFirst] at hFirst'
  obtain rfl : y = y' := Option.some.inj hFirst'
  exact Except.ok.inj (hMade'.symm.trans hMade)

end Stocked

end SceneExchange.Scene
