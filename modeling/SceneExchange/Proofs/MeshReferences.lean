import SceneExchange.Proofs.Elements
import SceneExchange.Proofs.MeshNames

/-!
# References to meshes

A walk asks for the meshes of the objects that it shows and of those that it groups by. Each of them
is referred to the mesh of its title, and so to the geometry of the first object that had this title.
-/

namespace SceneExchange.Scene

open Walking List Option List.Subset

variable {w w' : Walk} {n index x : Nat} {s : Scene}

/-! ## Lines -/

/-- A line of text stands in an actor of a name. -/
def Walk.Has (w : Walk) (n : Nat) (name line : String) : Prop :=
  ∃ d, w.drafts[n]? = some d ∧ d.head.name = name ∧ line ∈ d.head.fields

structure Writes (w w' : Walk) : Prop where
  stock : w'.stock = w.stock
  lines : ∀ {n : Nat} {name line : String}, w.Has n name line → w'.Has n name line

instance : IsPreorder Walk Writes where
  refl _ := ⟨rfl, id⟩
  trans _ _ _ h h' := ⟨h'.stock.trans h.stock, fun hLine => h'.lines (h.lines hLine)⟩

theorem writes_of_drafts (hStock : w'.stock = w.stock) (hDrafts : w'.drafts = w.drafts) : Writes w w' :=
  ⟨hStock, fun ⟨d, hd, hLine⟩ => ⟨d, by rwa [hDrafts], hLine⟩⟩

theorem writes_modify (w : Walk) (place : Nat) {f : ActorDraft → ActorDraft}
    (hName : ∀ d, (f d).head.name = d.head.name) (hFields : ∀ d, d.head.fields ⊆ (f d).head.fields) :
    Writes w { w with drafts := w.drafts.modify place f } := by
  refine ⟨rfl, ?_⟩
  rintro n name line ⟨d, hd, rfl, hLine⟩
  by_cases hPlace : place = n
  · exact ⟨f d, by simp [Array.getElem?_modify, hPlace, hd], hName d, hFields d hLine⟩
  · exact ⟨d, by simp [Array.getElem?_modify, hPlace, hd], rfl, hLine⟩

theorem writes_withHead (w : Walk) (n : Nat) {f : ActorHead → ActorHead} (hName : ∀ h, (f h).name = h.name)
    (hFields : ∀ h, h.fields ⊆ (f h).fields) : Writes w (w.withHead n f) :=
  writes_modify w n (fun d => hName d.head) fun d => hFields d.head

theorem has_modify {d : ActorDraft} {f : ActorDraft → ActorDraft} {line : String} (hd : w.drafts[n]? = some d)
    (hLine : line ∈ (f d).head.fields) :
    ({ w with drafts := w.drafts.modify n f } : Walk).Has n (f d).head.name line :=
  ⟨f d, by simp [Array.getElem?_modify, hd], rfl, hLine⟩

/-- A relation that holds where an actor was drafted, or hung somewhere. -/
structure Hanging (s : Scene) (R : Walk → Walk → Prop) : Prop where
  draft : ∀ w head, Drafted s head → R w { w with drafts := w.drafts.push { head := head } }
  named : ∀ w t, R w { w with named := t }
  roots : ∀ w l, R w { w with roots := l }
  children : ∀ w m n, R w { w with drafts := w.drafts.modify m fun d => { d with children := d.children.push n } }

namespace Hanging

variable {R : Walk → Walk → Prop} [IsPreorder Walk R]

theorem actorOf (hR : Hanging s R) {fuel index : Nat} {own : Option String} {parent : Option Nat} (w : Walk) :
    Ends (actorOf fuel index own parent) s w fun _ w' => R w w' := by
  induction fuel generalizing index own parent w with
  | zero => exact .throw
  | succ fuel ih =>
    refine .bindRead (.bindLift fun name _ => .bindGet ?_)
    split
    · exact .pure (refl_of R w)
    · refine .bind (ends_newHead.imp ?_)
      rintro head _ ⟨rfl, -, hDrafted⟩
      refine .bind (.bindGet (.bind (.set (.pure ?_))))
      have hHung (u : Walk) (hu : R w u) (holder : Option Nat) :=
        ends_attach s fuel w.drafts.size holder (Q := fun _ w' => R w w') (fun _ => trans_of R hu (hR.roots u _))
          fun p _ => (ih u).imp fun m v hv => trans_of R (trans_of R hu hv) (hR.children v m _)
      have hDraft := hR.draft w head hDrafted
      dsimp only
      split
      · exact .bind (.modify (hHung _ (trans_of R hDraft (hR.named _ _)) _))
      · exact hHung _ hDraft _

theorem findActor (hR : Hanging s R) {index : Nat} {own : Option String} {parent : Option Nat} (w : Walk) :
    Ends (findActor index own parent) s w fun _ w' => R w w' :=
  .bindRead (hR.actorOf w)

end Hanging

theorem hanging_writes : Hanging s Writes where
  draft w head _ := by
    refine ⟨rfl, ?_⟩
    rintro n name line ⟨d, hd, hLine⟩
    exact ⟨d, getElem?_push_of_some hd _, hLine⟩
  named _ _ := writes_of_drafts rfl rfl
  roots _ _ := writes_of_drafts rfl rfl
  children w m _ := writes_modify w m (fun _ => rfl) fun _ => refl _

theorem writes_listing (w : Walk) (m : Nat) (mesh : String) (ps : List Placed) : Writes w (w.listing m mesh ps) :=
  writes_withHead w m (fun _ => rfl) fun _ => refl _

theorem Lodged.writes {i : Instance} {j : Nat} {mesh : String} (h : Lodged s i j mesh w w') : Writes w w' := by
  obtain @⟨_, m, u, v, _, _, _, -, found, gathered, -⟩ := h
  refine trans_of Writes (hanging_writes.findActor w _ _ found) (trans_of Writes ?_ (writes_listing _ _ _ _))
  cases gathered with
  | later => exact refl_of Writes _
  | first =>
    refine trans_of Writes (writes_listing u m mesh []) ?_
    exact writes_of_drafts rfl rfl

/-! ## Visits -/

theorem Described.asked (h : Described s n x w w') (hKind : hasGeometry (s.object x).kind) :
    ∃ answer u, outcome (meshName x) s w = (.ok answer, u) ∧ Writes u w' ∧
      ∀ mesh d, answer = some mesh → u.drafts[n]? = some d → w'.Has n d.head.name (meshLine mesh) := by
  cases h with
  | unnamed _ answer => exact ⟨none, w', answer, refl_of Writes w', by simp⟩
  | @mesh mesh u ps _ answer =>
    let v := u.withHead n (.showing mesh)
    have hShowing : Writes u v := writes_withHead u n (fun _ => rfl) fun _ => subset_append_left ..
    have hCollecting : Writes v (v.collecting ps) := writes_of_drafts rfl rfl
    have hPainted : Writes (v.collecting ps) ((v.collecting ps).withHead n (.painted ps)) :=
      writes_withHead _ n (fun _ => rfl) fun _ => subset_append_left ..
    refine ⟨some mesh, u, answer, trans_of Writes hShowing (trans_of Writes hCollecting hPainted), ?_⟩
    rintro _ d ⟨⟩ hd
    exact hPainted.lines (has_modify hd (mem_append_right _ mem_cons_self))
  | told noMesh => exact absurd hKind noMesh
  | silent noMesh => exact absurd hKind noMesh

theorem Described.writes (h : Described s n x w w') (hKind : ¬hasGeometry (s.object x).kind) : Writes w w' := by
  cases h with
  | unnamed isMesh => exact absurd isMesh hKind
  | mesh isMesh => exact absurd isMesh hKind
  | @told d =>
    have hTelling : Writes w (w.withHead n (.telling d)) :=
      writes_withHead w n (fun _ => rfl) fun _ => subset_append_left ..
    refine trans_of Writes hTelling ?_
    exact writes_of_drafts rfl rfl
  | silent => exact writes_of_drafts rfl rfl

/-- The objects whose meshes a visit asks for. -/
def asks (s : Scene) (groups : Bool) : Instance × Fate → List Nat
  | (_, .passed) => []
  | (i, .listed _) => (s.grouper i).toList
  | (i, .shown) => (if groups && i.isInstance then (s.grouper i).toList else []) ++
      (i.object.filter fun x => hasGeometry (s.object x).kind).toList

def asked (s : Scene) (groups : Bool) (seen : List (Instance × Fate)) : List Nat := seen.flatMap (s.asks groups)

theorem Stocked.ask {asked : List Nat} {answer : Option String} (h : Stocked s asked w.stock)
    (hRun : outcome (meshName x) s w = (.ok answer, w')) :
    Stocked s (asked ++ [x]) w'.stock ∧ w.labels.IsWithin w'.labels ∧ w'.drafts = w.drafts ∧
      ∃ title, s.title? w'.labels x = some title ∧ answer = (w'.meshes.get? title).map fun _ => title := by
  have hDrafts := congrArg Prod.fst (board_meshName hRun)
  cases answers_of_meshName hRun with
  | @titled source libraries title _ _ _ isTitle _ collects =>
    obtain ⟨hStocked, hAnswer⟩ := (h.giving libraries).collects isTitle collects
    have hLabels := collects.labels_eq
    refine ⟨hStocked, ?_, hDrafts, title, ?_, hAnswer⟩
    · rw [hLabels]
      exact isWithin_giveLabels s.called libraries w.labels
    · rwa [hLabels]

/-- Labels of libraries are added only, and no line is lost. -/
structure Later (w w' : Walk) : Prop where
  labels : w.labels.IsWithin w'.labels
  lines : ∀ {n : Nat} {name line : String}, w.Has n name line → w'.Has n name line

theorem Later.refl (w : Walk) : Later w w := ⟨id, id⟩

theorem Later.trans {u : Walk} (h : Later w u) (h' : Later u w') : Later w w' :=
  ⟨fun hl => h'.labels (h.labels hl), fun hLine => h'.lines (h.lines hLine)⟩

theorem Writes.later (h : Writes w w') : Later w w' := by
  refine ⟨?_, h.lines⟩
  have hLabels : w'.labels = w.labels := congrArg Stock.labels h.stock
  intro l a hl
  rwa [hLabels]

/-- What is known of the visits so far: those listed and those shown have the title of their object, and refer to
the mesh of that title. -/
structure Noted (s : Scene) (groups : Bool) (seen : List (Instance × Fate)) (w : Walk) : Prop where
  stocked : Stocked s (s.asked groups seen) w.stock
  listed : ∀ {k : Nat} {i : Instance} {mesh : String}, seen[k]? = some (i, .listed mesh) →
    ∃ j, s.grouper i = some j ∧ s.title? w.labels j = some mesh ∧ (w.meshes.get? mesh).isSome
  shown : ∀ {k x : Nat} {i : Instance}, seen[k]? = some (i, .shown) → i.object = some x →
    hasGeometry (s.object x).kind → ∃ title, s.title? w.labels x = some title ∧
      ((w.meshes.get? title).isSome → ∃ n name, s.label (i.bearer k x) = .ok name ∧ w.Has n name (meshLine title))

namespace Noted

variable {s : Scene} {groups : Bool} {seen : List (Instance × Fate)} {w w' : Walk}

theorem empty (s : Scene) (groups : Bool) : Noted s groups [] {} where
  stocked := .empty s
  listed := by simp
  shown := by simp

theorem mem_asked {v : Instance × Fate} {x : Nat} (hv : v ∈ seen) (hx : x ∈ s.asks groups v) :
    x ∈ s.asked groups seen :=
  mem_flatMap.mpr ⟨v, hv, hx⟩

/-- What is known of the visits so far stays true, and the next visit adds to it. -/
theorem next {i : Instance} {f : Fate} (h : Noted s groups seen w) (hLater : Later w w')
    (hStocked : Stocked s (s.asked groups seen ++ s.asks groups (i, f)) w'.stock)
    (hListed : ∀ mesh, f = .listed mesh →
      ∃ j, s.grouper i = some j ∧ s.title? w'.labels j = some mesh ∧ (w'.meshes.get? mesh).isSome)
    (hShown : ∀ x, f = .shown → i.object = some x → hasGeometry (s.object x).kind →
      ∃ title, s.title? w'.labels x = some title ∧ ((w'.meshes.get? title).isSome →
        ∃ n name, s.label (i.bearer seen.length x) = .ok name ∧ w'.Has n name (meshLine title))) :
    Noted s groups (seen ++ [(i, f)]) w' := by
  have hKept {x : Nat} {title : String} (hx : x ∈ s.asked groups seen) (hTitle : s.title? w.labels x = some title) :
      w'.meshes.get? title = w.meshes.get? title :=
    h.stocked.meshes_eq hStocked hLater.labels hx hTitle
  constructor
  · simpa [Scene.asked] using hStocked
  · intro k j mesh hVisit
    obtain hVisit | ⟨rfl, hSame⟩ := getElem?_concat.mp hVisit
    · obtain ⟨y, hGrouper, hTitle, hIs⟩ := h.listed hVisit
      have hMem : y ∈ s.asked groups seen := mem_asked (mem_of_getElem? hVisit) (by simp [Scene.asks, hGrouper])
      exact ⟨y, hGrouper, title?_of_isWithin hLater.labels hTitle, by rwa [hKept hMem hTitle]⟩
    · obtain ⟨rfl, rfl⟩ := Prod.mk.inj hSame
      exact hListed mesh rfl
  · intro k x j hVisit hObject hKind
    obtain hVisit | ⟨rfl, hSame⟩ := getElem?_concat.mp hVisit
    · obtain ⟨title, hTitle, hLine⟩ := h.shown hVisit hObject hKind
      have hMem : x ∈ s.asked groups seen :=
        mem_asked (mem_of_getElem? hVisit) (by simp [Scene.asks, hObject, hKind, Option.filter])
      refine ⟨title, title?_of_isWithin hLater.labels hTitle, fun hIs => ?_⟩
      rw [hKept hMem hTitle] at hIs
      obtain ⟨n, name, hLabel, hHas⟩ := hLine hIs
      exact ⟨n, name, hLabel, hLater.lines hHas⟩
    · obtain ⟨rfl, rfl⟩ := Prod.mk.inj hSame
      exact hShown x rfl hObject hKind

theorem later_of_ask {x : Nat} {asked : List Nat} {answer : Option String} (h : Stocked s asked w.stock)
    (hRun : outcome (meshName x) s w = (.ok answer, w')) : Later w w' := by
  obtain ⟨-, hLabels, hDrafts, -⟩ := h.ask hRun
  refine ⟨hLabels, ?_⟩
  rintro n name line ⟨d, hd, hLine⟩
  exact ⟨d, by rwa [hDrafts], hLine⟩

theorem unlisted {i : Instance} (h : Noted s groups seen w) (hUnlisted : Unlisted groups s i w w') :
    Stocked s (s.asked groups seen ++ if groups && i.isInstance then (s.grouper i).toList else []) w'.stock ∧
      Later w w' := by
  cases hUnlisted with
  | unasked hNone =>
    refine ⟨?_, .refl w⟩
    have hNil : (if groups && i.isInstance then (s.grouper i).toList else []) = [] := by
      split
      · rename_i hGrouped
        rw [hNone hGrouped]
        rfl
      · rfl
    rw [hNil, append_nil]
    exact h.stocked
  | asked isGrouped grouper answer =>
    refine ⟨?_, later_of_ask h.stocked answer⟩
    rw [if_pos isGrouped, grouper]
    exact (h.stocked.ask answer).1

theorem step {selectedOnly : Bool} {i : Instance} {bs : List Bearer} (h : Noted s groups seen w)
    (hKept : Kept s seen bs w.outline) (hVisit : Visited groups selectedOnly s seen.length i w w') :
    Noted s groups (seen ++ [(i, fate groups selectedOnly s w i)]) w' := by
  cases hVisit with
  | passed isOut =>
    have hFate : fate groups selectedOnly s w i = .passed := by simp [fate, isOut]
    rw [hFate]
    refine h.next (.refl w) ?_ (by simp) (by simp)
    simpa [Scene.asks] using h.stocked
  | @listed x j mesh w₁ _ isIn object isGrouped grouper answer lodged =>
    rw [fate_eq_listed isIn isGrouped grouper answer]
    obtain ⟨hStocked, -, -, title, hTitle, hAnswer⟩ := h.stocked.ask answer
    obtain ⟨hMesh, rfl⟩ : (w₁.meshes.get? mesh).isSome ∧ title = mesh := by
      obtain ⟨a, hMesh, rfl⟩ := map_eq_some_iff.mp hAnswer.symm
      exact ⟨by rw [hMesh]; rfl, rfl⟩
    have hWrites := lodged.writes
    have hMeshes : w'.meshes = w₁.meshes := congrArg Stock.meshes hWrites.stock
    refine h.next ((later_of_ask h.stocked answer).trans hWrites.later) ?_ ?_ (by simp)
    · rw [hWrites.stock]
      simpa [Scene.asks, grouper] using hStocked
    · rintro _ ⟨⟩
      exact ⟨j, grouper, title?_of_isWithin hWrites.later.labels hTitle, by rwa [hMeshes]⟩
  | @shown x own parent n w₁ w₂ w₃ _ isIn object unlisted asks found turned described =>
    rw [fate_eq_shown isIn unlisted]
    obtain ⟨hStocked₁, hLater₁⟩ := h.unlisted unlisted
    have hTurned : Writes w₁ w₃ := by
      refine trans_of Writes (hanging_writes.findActor w₁ n w₂ found) ?_
      obtain rfl | ⟨_, t, -, rfl⟩ := turned
      · exact refl_of Writes w₃
      · exact writes_withHead w₂ n (fun _ => rfl) fun _ => refl _
    rw [← hTurned.stock] at hStocked₁
    -- The actor that is described has the name of the bearer.
    obtain ⟨d, hd, hLabel⟩ : ∃ d, w₃.drafts[n]? = some d ∧ s.label (i.bearer seen.length x) = .ok d.head.name := by
      have hFinds := ends_findActor asks w₁ n w₂ found
      have hOutline : w₃.outline = w₂.outline := by
        obtain rfl | ⟨_, t, -, rfl⟩ := turned
        · rfl
        · exact outline_turned w₂ n t
      rw [unlisted.outline_eq, ← hOutline] at hFinds
      obtain ⟨more, hCharts, -, hStands⟩ := hFinds.charts hKept.charts (hKept.bearer_notMem i x)
      obtain ⟨y, hy, hName⟩ := hCharts.label_of_stands hStands
      simp only [Walk.outline, getElem?_map, map_eq_some_iff, Array.getElem?_toList] at hy
      obtain ⟨d, hd, rfl⟩ := hy
      exact ⟨d, hd, hName⟩
    have hLater₃ := hLater₁.trans hTurned.later
    by_cases hKind : hasGeometry (s.object x).kind = true
    · obtain ⟨answer, u, hRun, hWrites, hLine⟩ := described.asked hKind
      obtain ⟨hStocked, -, hDrafts, title, hTitle, hAnswer⟩ := hStocked₁.ask hRun
      have hMeshes : w'.meshes = u.meshes := congrArg Stock.meshes hWrites.stock
      refine h.next (hLater₃.trans ((later_of_ask hStocked₁ hRun).trans hWrites.later)) ?_ (by simp) ?_
      · rw [hWrites.stock]
        simpa [Scene.asks, object, hKind, Option.filter] using hStocked
      · intro y _ hObject _
        obtain rfl : x = y := Option.some.inj (object.symm.trans hObject)
        refine ⟨title, title?_of_isWithin hWrites.later.labels hTitle, fun hIs => ⟨n, d.head.name, hLabel, ?_⟩⟩
        refine hLine title d ?_ (by rwa [hDrafts])
        obtain ⟨a, ha⟩ := isSome_iff_exists.mp hIs
        rw [hMeshes] at ha
        rw [hAnswer, ha]
        rfl
    · have hWrites := described.writes hKind
      refine h.next (hLater₃.trans hWrites.later) ?_ (by simp) ?_
      · rw [hWrites.stock]
        simpa [Scene.asks, object, hKind, Option.filter] using hStocked₁
      · intro y _ hObject hGeometry
        obtain rfl : x = y := Option.some.inj (object.symm.trans hObject)
        exact absurd hGeometry hKind

end Noted

/-! ## Whose mesh is referred to -/

/-- Every mesh was collected from the first object that asked under its title, and all that have this title refer
to it. -/
structure RefersToFirst (s : Scene) (groups : Bool) (seen : List (Instance × Fate)) (w : Walk) : Prop where
  /-- Libraries have different labels. -/
  labels : w.labels.IsInjective
  collected : ∀ x ∈ s.asked groups seen, ∃ title y, s.title? w.labels x = some title ∧
    s.first? w.labels (s.asked groups seen) title = some y ∧ s.assetOf y title = .ok (w.meshes.get? title)
  listed : ∀ {k : Nat} {i : Instance} {mesh : String}, seen[k]? = some (i, .listed mesh) →
    ∃ j ∈ s.asked groups seen, s.grouper i = some j ∧ s.title? w.labels j = some mesh ∧ (w.meshes.get? mesh).isSome
  shown : ∀ {k x : Nat} {i : Instance}, seen[k]? = some (i, .shown) → i.object = some x →
    hasGeometry (s.object x).kind → x ∈ s.asked groups seen ∧ ∃ title, s.title? w.labels x = some title ∧
      ((w.meshes.get? title).isSome → ∃ n name, s.label (i.bearer k x) = .ok name ∧ w.Has n name (meshLine title))
  /-- All refer to their own geometry just if those with the same title have the same. -/
  own_iff : (∀ x ∈ s.asked groups seen, ∀ title, s.title? w.labels x = some title →
      s.assetOf x title = .ok (w.meshes.get? title)) ↔
    ∀ x ∈ s.asked groups seen, ∀ y ∈ s.asked groups seen, ∀ title, s.title? w.labels x = some title →
      s.title? w.labels y = some title → s.assetOf x title = s.assetOf y title

theorem refersToFirst_of_walk {groups selectedOnly : Bool} {s : Scene} {w : Walk}
    (hWalk : outcome (walkAll groups selectedOnly) s {} = (.ok (), w)) :
    RefersToFirst s groups (visits groups selectedOnly s {} s.instances) w := by
  obtain ⟨h, -⟩ := walk_induction (P := fun seen w => Noted s groups seen w ∧ ∃ bs, Kept s seen bs w.outline) (by
      rintro seen i w w' hVisit ⟨hNoted, bs, hKept⟩
      obtain ⟨more, hNext⟩ := hKept.step (step_of_visited hVisit)
      exact ⟨hNoted.step hKept hVisit, bs ++ more, hNext⟩)
    ⟨.empty s groups, [], .empty s⟩ hWalk
  have hCollected : ∀ x ∈ s.asked groups (visits groups selectedOnly s {} s.instances), ∃ title y,
      s.title? w.labels x = some title ∧
      s.first? w.labels (s.asked groups (visits groups selectedOnly s {} s.instances)) title = some y ∧
      s.assetOf y title = .ok (w.meshes.get? title) := by
    intro x hx
    obtain ⟨title, hTitle, hIs⟩ := h.stocked.titled x hx
    obtain ⟨b, hb⟩ := isSome_iff_exists.mp hIs
    obtain ⟨y, hFirst, hMade, -⟩ := h.stocked.made hb
    exact ⟨title, y, hTitle, hFirst, hMade⟩
  constructor
  · exact h.stocked.labels
  · exact hCollected
  · intro k i mesh hVisit
    obtain ⟨j, hGrouper, hTitle, hIs⟩ := h.listed hVisit
    exact ⟨j, Noted.mem_asked (mem_of_getElem? hVisit) (by simp [Scene.asks, hGrouper]), hGrouper, hTitle, hIs⟩
  · intro k x i hVisit hObject hKind
    refine ⟨Noted.mem_asked (mem_of_getElem? hVisit) ?_, h.shown hVisit hObject hKind⟩
    simp [Scene.asks, hObject, hKind, Option.filter]
  · constructor
    · intro hOwn x hx y hy title hTitleX hTitleY
      rw [hOwn x hx title hTitleX, hOwn y hy title hTitleY]
    · intro hSame x hx title hTitle
      obtain ⟨title', y, hTitle', hFirst, hMade⟩ := hCollected x hx
      obtain rfl : title' = title := Option.some.inj (hTitle'.symm.trans hTitle)
      have hy := mem_of_find?_eq_some hFirst
      have hTitleY : s.title? w.labels y = some title' := by simpa using find?_some hFirst
      rw [hSame x hx y hy title' hTitle hTitleY, hMade]

/-- Two objects with meshes of their own, the names of which become one in the document. -/
def stones : Scene where
  objects := #[{ box "Pebble" with kind := "MESH", content := .mesh 0, source := some 0 },
    { box "Boulder" with kind := "MESH", content := .mesh 1, source := some 1 }]
  meshes := #[ { (default : Mesh.Shape) with
      name := "Rock.1", coordinates := [0.0, 0.0, 0.0, 1.0, 0.0, 0.0, 0.0, 1.0, 0.0], corners := [0, 1, 2] },
    { (default : Mesh.Shape) with
      name := "Rock_1", coordinates := [0.0, 0.0, 0.0, 9.0, 0.0, 0.0, 0.0, 9.0, 0.0], corners := [0, 1, 2, 0, 2, 1] }]
  instances := [⟨some 0, false, none, none, none, []⟩, ⟨some 1, false, none, none, none, []⟩]

theorem stones_refer_to_pebble : ∃ w, outcome (walkAll true false) stones {} = (.ok (), w) ∧
    stones.title? w.labels 0 = some "Rock_1" ∧ stones.title? w.labels 1 = some "Rock_1" ∧
    (∃ n, w.Has n "Boulder" (meshLine "Rock_1")) ∧
    stones.assetOf 0 "Rock_1" = .ok (w.meshes.get? "Rock_1") ∧
    stones.assetOf 1 "Rock_1" ≠ .ok (w.meshes.get? "Rock_1") := by
  obtain ⟨w, hWalk⟩ : ∃ w, outcome (walkAll true false) stones {} = (.ok (), w) := exists_walk (by decide +kernel)
  have hRefers := refersToFirst_of_walk hWalk
  have hAsked : stones.asked true (visits true false stones {} stones.instances) = [0, 1] := by decide +kernel
  have hWithin : Table.IsWithin .empty w.labels := by
    intro l a h
    cases h
  have hPebble := title?_of_isWithin hWithin (show stones.title? .empty 0 = some "Rock_1" by decide +kernel)
  have hBoulder := title?_of_isWithin hWithin (show stones.title? .empty 1 = some "Rock_1" by decide +kernel)
  have hMesh : stones.assetOf 0 "Rock_1" = .ok (w.meshes.get? "Rock_1") := by
    obtain ⟨title, y, hTitle, hFirst, hMade⟩ := hRefers.collected 0 (by simp [hAsked])
    obtain rfl : "Rock_1" = title := Option.some.inj (hPebble.symm.trans hTitle)
    obtain rfl : 0 = y := by simpa [hAsked, first?, hPebble] using hFirst
    exact hMade
  -- The pebble has one triangle and the boulder has two.
  have hCorners (x : Nat) (n : Option Nat) (h : ((stones.assetOf x "Rock_1").toOption.join.map fun a =>
      a.raw.indices.length) = n) (hEq : stones.assetOf x "Rock_1" = .ok (w.meshes.get? "Rock_1")) :
      (w.meshes.get? "Rock_1").map (fun a => a.raw.indices.length) = n := by
    rw [hEq] at h
    exact h
  have hThree := hCorners 0 (some 3) (by decide +kernel) hMesh
  refine ⟨w, hWalk, hPebble, hBoulder, ?_, hMesh, fun hEq => ?_⟩
  · obtain ⟨i, hVisit, hObject, hLabel⟩ : ∃ i : Instance,
        (visits true false stones {} stones.instances)[1]? = some (i, .shown) ∧ i.object = some 1 ∧
          (stones.label (i.bearer 1 1)).toOption = some "Boulder" := by
      exact ⟨⟨some 1, false, none, none, none, []⟩, rfl, rfl, by decide +kernel⟩
    obtain ⟨-, title, hTitle, hLine⟩ := hRefers.shown hVisit hObject (by decide +kernel)
    obtain rfl : "Rock_1" = title := Option.some.inj (hBoulder.symm.trans hTitle)
    obtain ⟨n, name, hName, hHas⟩ := hLine (by
      obtain ⟨a, ha, -⟩ := map_eq_some_iff.mp hThree
      rw [ha]
      rfl)
    rw [hName] at hLabel
    cases hLabel
    exact ⟨n, hHas⟩
  · have hSix := hCorners 1 (some 6) (by decide +kernel) hEq
    exact absurd (hThree.symm.trans hSix) (by decide)

end SceneExchange.Scene
