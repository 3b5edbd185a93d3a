import SceneExchange.Proofs.Lines

/-!
# What a walk collects

Every question for a mesh is answered from what is known of its title, or else by converting geometry,
which makes the title known. So geometry is converted once for each title, and whatever the actors of a
walk refer to was collected by it.
-/

namespace SceneExchange.Scene

open Walking List Option Table Name

variable {s : Scene} {w : Walk} {x : Nat} {title : String}

/-! ## Questions -/

structure Question where
  object : Nat
  title : String
  /-- Whether geometry was converted to answer it. -/
  converts : Bool

/-- The questions of a walk so far: a title that is not known yet has its geometry converted. -/
inductive Asked (s : Scene) : List Question → Walk → Prop
  | start : Asked s [] {}
  | unasked {qs w w'} (before : Asked s qs w) (stock : w'.stock = w.stock) : Asked s qs w'
  | ask {qs w x answer title w'} (before : Asked s qs w) (run : outcome (meshName x) s w = (.ok answer, w'))
      (titled : s.title? w'.labels x = some title) :
      Asked s (qs ++ [⟨x, title, (w.known.get? title).isNone⟩]) w'

/-- The titles under which geometry was converted. -/
def conversions (qs : List Question) : List String := (qs.filter Question.converts).map Question.title

theorem conversions_concat (qs : List Question) (q : Question) :
    conversions (qs ++ [q]) = conversions qs ++ if q.converts then [q.title] else [] := by
  unfold conversions
  rw [filter_append, map_append]
  cases hq : q.converts <;> simp [hq]

theorem ends_known {w' : Walk} {answer : Option String} (hRun : outcome (meshName x) s w = (.ok answer, w')) :
    ∃ title, s.title? w'.labels x = some title ∧ ((w.known.get? title).isSome ∧ w'.known = w.known ∨
        w.known.get? title = none ∧ ∃ b, w'.known = w.known.insert title b) := by
  cases answers_of_meshName hRun with
  | @titled _ _ title _ _ _ isTitle _ collects =>
    refine ⟨title, collects.labels_eq ▸ isTitle, ?_⟩
    cases collects with
    | again known => exact .inl ⟨isSome_iff_exists.mpr ⟨_, known⟩, rfl⟩
    | @anew asset isNew => exact .inr ⟨isNew, asset.isSome, rfl⟩

/-- Geometry is converted once at most under a title, and a title is known just if this was done. -/
theorem Asked.conversions {qs : List Question} (h : Asked s qs w) :
    (conversions qs).Nodup ∧ ∀ title, title ∈ conversions qs ↔ (w.known.get? title).isSome := by
  induction h with
  | start => exact ⟨nodup_nil, fun title => by simp [Scene.conversions, get?, empty]⟩
  | @unasked qs w w' before stock ih =>
    have hKnown : w'.known = w.known := congrArg Stock.known stock
    rwa [hKnown]
  | @ask qs w x answer title w' before run titled ih =>
    obtain ⟨hNodup, hMem⟩ := ih
    obtain ⟨title', hTitle, hKnown⟩ := ends_known run
    obtain rfl : title = title' := Option.some.inj (titled.symm.trans hTitle)
    rw [conversions_concat]
    obtain ⟨hOld, hSame⟩ | ⟨hNew, b, hInsert⟩ := hKnown
    · rw [hSame]
      have hAgain : (w.known.get? title).isNone = false := by simpa using hOld
      simpa [hAgain] using ⟨hNodup, hMem⟩
    · have hFresh : title ∉ Scene.conversions qs := by
        rw [hMem, hNew]
        simp
      constructor
      · simpa [hNew] using List.Nodup.concat hFresh hNodup
      · intro title'
        rw [hInsert]
        by_cases hTitle : title' = title
        · subst hTitle
          simp [hNew]
        · rw [get?_insert_of_ne _ hTitle]
          simp [hNew, hMem, hTitle]

theorem outcome_meshName_of_known {b : Bool} (hTitle : s.title? w.labels x = some title)
    (hKnown : w.known.get? title = some b) :
    outcome (meshName x) s w = (.ok (if b then some title else none), w) := by
  generalize hRun : outcome (meshName x) s w = run
  obtain ⟨r, w'⟩ := run
  have hLater (libraries : List Nat) : s.title? (w.giving s libraries).labels x = some title :=
    title?_of_isWithin (isWithin_giveLabels s.called libraries w.labels) hTitle
  cases answers_of_meshName hRun with
  | @untitled _ libraries noTitle => cases (hLater libraries).symm.trans noTitle
  | @titled _ libraries _ _ _ _ isTitle isKnown collects =>
    cases (hLater libraries).symm.trans isTitle
    rw [isKnown (isSome_iff_exists.mpr ⟨title, hTitle⟩)] at collects
    cases collects with
    | again known =>
      cases hKnown.symm.trans known
      rfl
    | anew isNew => cases hKnown.symm.trans isNew
    | failed isNew => cases hKnown.symm.trans isNew

def reshaped (s : Scene) (x : Nat) (evaluated : Option (Option Nat)) : Scene :=
  { s with objects := s.objects.modify x ({ · with evaluated := evaluated }) }

theorem title?_reshaped (s : Scene) (y : Nat) (evaluated : Option (Option Nat)) (labels : Table Nat String)
    (x : Nat) : (s.reshaped y evaluated).title? labels x = s.title? labels x := by
  have hObject (z : Nat) : ∃ e, (s.reshaped y evaluated).object z = { s.object z with evaluated := e } := by
    unfold Scene.object reshaped
    dsimp only
    rw [Array.getElem?_modify]
    split
    · cases s.objects[z]? with
      | none => exact ⟨_, rfl⟩
      | some o => exact ⟨evaluated, rfl⟩
    · exact ⟨_, rfl⟩
  obtain ⟨e, hx⟩ := hObject x
  unfold title?
  rw [hx]
  cases (s.object x).source with
  | none => rfl
  | some source =>
    obtain ⟨e', hSource⟩ := hObject source
    change ((s.reshaped y evaluated).fullTitle? labels ((s.reshaped y evaluated).object source)).bind _ = _
    rw [hSource]
    rfl

/-! ## Materials of meshes -/

structure Covers (slots : List MaterialSlot) (w : Walk) : Prop where
  each : ∀ slot ∈ slots, slot.material ∈ w.materials
  lacking : slots = [] → none ∈ w.materials

theorem Covers.later {slots : List MaterialSlot} {w' : Walk} (h : Covers slots w)
    (hMaterials : ∀ m ∈ w.materials, m ∈ w'.materials) : Covers slots w' :=
  ⟨fun slot hSlot => hMaterials _ (h.each slot hSlot), fun hNone => hMaterials _ (h.lacking hNone)⟩

theorem materials_of_ask {answer : Option String} {w' : Walk} (hRun : outcome (meshName x) s w = (.ok answer, w')) :
    (∀ m ∈ w.materials, m ∈ w'.materials) ∧ ∀ {title source}, s.title? w'.labels x = some title →
      (s.object x).source = some source → w.known.get? title = none → answer.isSome →
        Covers (s.object source).slots w' := by
  cases answers_of_meshName hRun with
  | @titled source libraries title _ _ isSource isTitle _ collects =>
    rw [collects.labels_eq, isTitle, isSource]
    cases collects with
    | again known =>
      refine ⟨fun _ => id, ?_⟩
      rintro _ _ ⟨⟩ - hNew
      cases known.symm.trans hNew
    | @anew asset =>
      cases asset with
      | none => exact ⟨fun _ => id, fun _ _ _ => nofun⟩
      | some a =>
        refine ⟨fun m hm => Array.mem_append_left _ hm, ?_⟩
        rintro _ _ - ⟨⟩ - -
        have hNoted {m : Option Nat} (hm : m ∈ slotMaterials (s.object source).slots) :
            m ∈ ((w.giving s libraries).adding title (s.object source).slots (some a)).materials :=
          Array.mem_append_right _ (by simpa using hm)
        constructor
        · intro slot hSlot
          refine hNoted ?_
          rw [slotMaterials, if_neg (by simpa using ne_nil_of_mem hSlot)]
          exact mem_map_of_mem hSlot
        · intro hNone
          refine hNoted ?_
          simp [slotMaterials, hNone]

/-! ## Sound walks -/

theorem legal_of_title? {labels : Table Nat String} (h : s.title? labels x = some title) :
    ∃ full, legal full = .ok title := by
  obtain ⟨source, -, h⟩ := bind_eq_some_iff.mp h
  obtain ⟨full, -, h⟩ := bind_eq_some_iff.mp h
  exact ⟨full, eq_ok_of_toOption h⟩

theorem assetOf_eq_some {a : Mesh.Asset} (h : s.assetOf x title = .ok (some a)) :
    ∃ shape, s.shapeOf x = .ok (some shape) ∧ a.name = title ∧
      Mesh.materialNames (shape.materials.map fun m => m.map s.materialName) = .ok a.materials := by
  obtain ⟨shape?, hShape, h⟩ := bind_eq_ok.mp h
  cases shape? with
  | none => cases h
  | some shape =>
    dsimp only at h
    split at h
    · cases h
    · obtain ⟨names, hNames, h⟩ := bind_eq_ok.mp h
      obtain ⟨raw, -, ⟨⟩⟩ := bind_eq_ok.mp h
      exact ⟨shape, hShape, rfl, hNames⟩

/-- What holds of a walk after the questions that it has asked. -/
structure Sound (s : Scene) (qs : List Question) (w : Walk) : Prop where
  asked : Asked s qs w
  stocked : Stocked s (qs.map Question.object) w.stock
  refers : w.Refers s
  nodup : w.meshes.keys.Nodup
  covers : ∀ {title y source}, (w.meshes.get? title).isSome →
    s.first? w.labels (qs.map Question.object) title = some y → (s.object y).source = some source →
      Covers (s.object source).slots w

namespace Sound

variable {s : Scene} {qs : List Question} {w w' : Walk}

theorem empty (s : Scene) : Sound s [] {} where
  asked := .start
  stocked := .empty s
  refers := by
    intro n d hd
    simp at hd
  nodup := nodup_nil
  covers h := by cases h

theorem of_refers (h : Sound s qs w) (hStock : w'.stock = w.stock) (hMaterials : ∀ m ∈ w.materials, m ∈ w'.materials)
    (hRefers : w'.Refers s) : Sound s qs w' where
  asked := .unasked h.asked hStock
  stocked := hStock ▸ h.stocked
  refers := hRefers
  nodup := by
    rw [show w'.meshes = w.meshes from congrArg Stock.meshes hStock]
    exact h.nodup
  covers := by
    rw [show w'.meshes = w.meshes from congrArg Stock.meshes hStock,
      show w'.labels = w.labels from congrArg Stock.labels hStock]
    intro title y source hSome hFirst hSource
    exact (h.covers hSome hFirst hSource).later hMaterials

theorem plainly (h : Sound s qs w) (hPlainly : Plainly w w') : Sound s qs w' :=
  h.of_refers hPlainly.stock hPlainly.gathers.materials (h.refers.plainly hPlainly)

theorem meshes_of_ask {x : Nat} {answer : Option String} (h : Sound s qs w)
    (hRun : outcome (meshName x) s w = (.ok answer, w')) {title : String} (hTitle : s.title? w'.labels x = some title) :
    w'.meshes.keys.Nodup ∧ ∀ t, (w.known.get? t).isSome ∨ t ≠ title → w'.meshes.get? t = w.meshes.get? t := by
  cases answers_of_meshName hRun with
  | @titled _ _ title' _ _ _ isTitle _ collects =>
    rw [collects.labels_eq, isTitle] at hTitle
    cases hTitle
    cases collects with
    | again => exact ⟨h.nodup, fun _ _ => rfl⟩
    | @anew asset isNew =>
      cases asset with
      | none => exact ⟨h.nodup, fun _ _ => rfl⟩
      | some a =>
        refine ⟨nodup_keys_insert h.nodup title a, fun t ht => get?_insert_of_ne _ ?_ a⟩
        rintro rfl
        rw [show w.known.get? t = none from isNew] at ht
        simp at ht

theorem ask {x : Nat} {answer : Option String} (h : Sound s qs w)
    (hRun : outcome (meshName x) s w = (.ok answer, w')) : ∃ q : Question, q.object = x ∧ Sound s (qs ++ [q]) w' ∧
      ∀ mesh, answer = some mesh → (w'.meshes.get? mesh).isSome := by
  obtain ⟨hStocked, hLabels, hDrafts, title, hTitle, hAnswer⟩ := h.stocked.ask hRun
  obtain ⟨hMaterials, hCovers⟩ := materials_of_ask hRun
  obtain ⟨hNodup, hOthers⟩ := h.meshes_of_ask hRun hTitle
  have hFirsts (t : String) : s.first? w'.labels (qs.map Question.object) t = s.first? w.labels
    (qs.map Question.object) t := by
    have hWithin : w.stock.labels.IsWithin w'.stock.labels := hLabels
    exact h.stocked.first?_eq hWithin t
  have hGathers : Gathers w w' := by
    refine ⟨fun {t a} ha => ?_, hMaterials⟩
    rw [hOthers t, ha]
    refine .inl (isSome_iff_ne_none.mpr fun hNone => ?_)
    have hRest : w.meshes.get? t = none := h.stocked.rest hNone
    rw [ha] at hRest
    cases hRest
  refine ⟨⟨x, title, (w.known.get? title).isNone⟩, rfl, ?_, ?_⟩
  · refine ⟨.ask h.asked hRun hTitle, ?_, h.refers.of_drafts hGathers hDrafts, hNodup, ?_⟩
    · rwa [map_append]
    · intro t y source hSome hFirst hSource
      rw [map_append] at hFirst
      cases hKnown : w.known.get? t with
      | some b =>
        -- The first to ask was there before.
        rw [hOthers t (.inl (by rw [hKnown]; rfl))] at hSome
        obtain ⟨z, hz, -⟩ := h.stocked.made hKnown
        have hStays : s.first? w'.stock.labels (qs.map Question.object) t = some z := (hFirsts t).trans hz
        obtain rfl : y = z := Option.some.inj (hFirst.symm.trans (Stocked.first?_concat_of_some hStays x))
        exact (h.covers hSome hz hSource).later hMaterials
      | none =>
        have hRest : w.meshes.get? t = none := h.stocked.rest hKnown
        obtain rfl : t = title := by
          by_contra hNe
          rw [hOthers t (.inr hNe), hRest] at hSome
          cases hSome
        have hNobody : s.first? w'.labels (qs.map Question.object) t = none :=
          (hFirsts t).trans (h.stocked.first?_eq_none hKnown)
        have hFirst' : (s.first? w'.labels (qs.map Question.object) t).or (s.first? w'.labels [x] t) = some y := by
          rw [← hFirst]
          exact find?_append.symm
        rw [hNobody] at hFirst'
        obtain rfl : x = y := by simpa [first?, hTitle] using hFirst'
        refine hCovers hTitle hSource hKnown ?_
        rw [hAnswer]
        simpa using hSome
  · rintro mesh rfl
    obtain ⟨a, ha, rfl⟩ := map_eq_some_iff.mp hAnswer.symm
    rw [ha]
    rfl

theorem describe {n x : Nat} (h : Sound s qs w) (hDescribed : Described s n x w w')
    (hKind : hasGeometry (s.object x).kind) : ∃ q : Question, q.object = x ∧ Sound s (qs ++ [q]) w' := by
  cases hDescribed with
  | unnamed _ answer =>
    obtain ⟨q, hObject, hSound, -⟩ := h.ask answer
    exact ⟨q, hObject, hSound⟩
  | @mesh mesh u ps _ answer paints =>
    obtain ⟨q, hObject, hSound, hCollected⟩ := h.ask answer
    have hShowing : (u.withHead n (.showing mesh)).Refers s := by
      refine hSound.refers.withHead n fun head hHead => ?_
      have hLine : ∀ line ∈ [meshLine mesh], Backed s u line := by
        intro line hLine
        obtain rfl := mem_singleton.mp hLine
        exact .mesh (hCollected mesh rfl)
      have hAdded := hHead.addFields hLine
      exact ⟨hAdded.fields, hAdded.meshes, hAdded.materials⟩
    have hMaterials : ∀ m ∈ u.materials, m ∈ (u.collecting ps).materials := fun m hm => Array.mem_append_left _ hm
    have hCollecting : ((u.withHead n (.showing mesh)).collecting ps).Refers s := hShowing.of_drafts ⟨id, hMaterials⟩ rfl
    have hPainted := hCollecting.withHead n (f := .painted ps) fun head hHead =>
      hHead.addFields (backed_of_paints (.inl rfl) paints)
    exact ⟨q, hObject, hSound.of_refers rfl hMaterials hPainted⟩
  | told noMesh => exact absurd hKind noMesh
  | silent noMesh => exact absurd hKind noMesh

theorem place {i : Instance} {j : Nat} {mesh : String} (h : Sound s qs w) (hMesh : (w.meshes.get? mesh).isSome)
    (hLodged : Lodged s i j mesh w w') : Sound s qs w' := by
  obtain @⟨p, n, u, v, below, world, materials, -, found, gathered, -⟩ := hLodged
  have hPlainly := hanging_plainly.findActor w n u found
  have hSound := h.plainly hPlainly
  have hStock : v.stock = u.stock := by cases gathered <;> rfl
  have hGathers : Gathers u v := by
    cases gathered with
    | later => exact refl_of Gathers u
    | first => exact ⟨id, fun m hm => Array.mem_append_left _ hm⟩
  have hMaterials : ∀ lines, materials = some lines → ∀ line ∈ lines, Backed s v line := by
    rintro lines rfl
    cases gathered with
    | first _ paints => exact backed_of_paints (.inr rfl) paints
  have hOld : u.Obeys (Backed s v) fun mesh => (v.meshes.get? mesh).isSome :=
    Walk.Obeys.imp hSound.refers (fun _ => Backed.later hGathers) fun _ => hGathers.isSome
  have hListed : (u.listing n mesh (u.outline.listed n mesh ++ [⟨below, world, materials⟩])).Obeys (Backed s v)
      fun mesh => (v.meshes.get? mesh).isSome := by
    refine hOld.modify n fun d _ hd => hd.list (hGathers.isSome (hPlainly.gathers.isSome hMesh)) fun hp hp' hLine => ?_
    obtain hp | hp := mem_append.mp hp
    · rw [listed_outline] at hp
      change _ ∈ ((u.headAt n).instances.get? mesh).getD [] at hp
      cases hGet : (u.headAt n).instances.get? mesh with
      | none =>
        rw [hGet] at hp
        cases hp
      | some ps =>
        rw [hGet] at hp
        exact (hOld.headAt n).materials (mem_of_lookup hGet) hp hp' hLine
    · obtain rfl := mem_singleton.mp hp
      exact hMaterials _ hp' _ hLine
  have hDrafts := congrArg Prod.fst (gathered.board_listing (u.outline.listed n mesh ++ [⟨below, world, materials⟩]))
  refine hSound.of_refers hStock hGathers.materials
    (Walk.Obeys.imp (hListed.of_drafts hDrafts) (fun _ => .later ?_) fun _ => id)
  exact ⟨id, fun _ => id⟩

theorem step {groups selectedOnly : Bool} {k : Nat} {i : Instance} (h : Sound s qs w)
    (hVisit : Visited groups selectedOnly s k i w w') : ∃ more,
      more.map Question.object = s.asks groups (i, fate groups selectedOnly s w i) ∧ Sound s (qs ++ more) w' := by
  cases hVisit with
  | passed isOut =>
    have hFate : fate groups selectedOnly s w i = .passed := by simp [fate, isOut]
    rw [hFate]
    exact ⟨[], rfl, by rwa [append_nil]⟩
  | @listed x j mesh w₁ _ isIn object isGrouped grouper answer lodged =>
    rw [fate_eq_listed isIn isGrouped grouper answer]
    obtain ⟨q, rfl, hSound, hCollected⟩ := h.ask answer
    exact ⟨[q], by simp [Scene.asks, grouper], hSound.place (hCollected mesh rfl) lodged⟩
  | @shown x own parent n w₁ w₂ w₃ _ isIn object unlisted asks found turned described =>
    rw [fate_eq_shown isIn unlisted]
    obtain ⟨first, hFirst, hSound⟩ : ∃ first, first.map Question.object =
        (if groups && i.isInstance then (s.grouper i).toList else []) ∧ Sound s (qs ++ first) w₁ := by
      cases unlisted with
      | unasked hNone =>
        refine ⟨[], ?_, by rwa [append_nil]⟩
        split
        · rename_i hGrouped
          rw [hNone hGrouped]
          rfl
        · rfl
      | asked isGrouped grouper answer =>
        obtain ⟨q, rfl, hSound, -⟩ := h.ask answer
        exact ⟨[q], by simp [isGrouped, grouper], hSound⟩
    have hTurned : Plainly w₁ w₃ := by
      refine trans_of Plainly (hanging_plainly.findActor w₁ n w₂ found) ?_
      obtain rfl | ⟨_, t, -, rfl⟩ := turned
      · exact refl_of Plainly w₃
      · exact plainly_turned w₂ n t
    replace hSound := hSound.plainly hTurned
    by_cases hKind : hasGeometry (s.object x).kind = true
    · obtain ⟨q, rfl, hNext⟩ := hSound.describe described hKind
      refine ⟨first ++ [q], ?_, by rwa [← append_assoc]⟩
      simp [Scene.asks, hFirst, object, hKind, Option.filter]
    · refine ⟨first, ?_, hSound.plainly (described.plainly hKind)⟩
      simp [Scene.asks, hFirst, object, hKind, Option.filter]

theorem first_of_mesh {title : String} {a : Mesh.Asset} (h : Sound s qs w) (ha : w.meshes.get? title = some a) :
    ∃ y, s.first? w.labels (qs.map Question.object) title = some y ∧ s.title? w.labels y = some title ∧
      s.assetOf y title = .ok (some a) := by
  cases hKnown : w.known.get? title with
  | none =>
    have hNone : w.meshes.get? title = none := h.stocked.rest hKnown
    rw [ha] at hNone
    cases hNone
  | some b =>
    obtain ⟨y, hFirst, hMade, -⟩ := h.stocked.made hKnown
    have hTitle : s.title? w.stock.labels y = some title := by simpa using find?_some hFirst
    refine ⟨y, hFirst, hTitle, ?_⟩
    rw [hMade, show w.stock.meshes.get? title = some a from ha]

theorem known_iff (h : Sound s qs w) (title : String) : w.known.get? title = some true ↔ title ∈ w.meshes.keys := by
  have hKeys : title ∈ w.meshes.keys ↔ (w.meshes.get? title).isSome := by
    constructor
    · intro hMem
      obtain ⟨⟨t, a⟩, ha, rfl⟩ := mem_map.mp hMem
      rw [(mem_entries_iff h.nodup).mp ha]
      rfl
    · intro hSome
      obtain ⟨a, ha⟩ := isSome_iff_exists.mp hSome
      exact mem_map.mpr ⟨_, mem_of_lookup ha, rfl⟩
  rw [hKeys]
  cases hKnown : w.known.get? title with
  | none =>
    have hNone : w.meshes.get? title = none := h.stocked.rest hKnown
    simp [hNone]
  | some b =>
    obtain ⟨y, -, -, hIs⟩ := h.stocked.made hKnown
    rw [show (w.meshes.get? title).isSome = b from hIs.symm]
    simp

end Sound

theorem sound_of_visits {groups selectedOnly : Bool} {front : List Instance} (hFront : front <+: s.instances)
    (hRun : outcome (front.forM (visit groups selectedOnly)) s {} = (.ok (), w)) :
    ∃ qs, qs.map Question.object = s.asked groups (visits groups selectedOnly s {} front) ∧ Sound s qs w := by
  refine ends_visits (P := fun seen w => ∃ qs, qs.map Question.object = s.asked groups seen ∧ Sound s qs w) ?_ [] front
    hFront (show ([] : List (Instance × Fate)).length = 0 from rfl) ⟨[], rfl, .empty s⟩ () w hRun
  rintro done i w w' hVisit ⟨qs, hAsked, hSound⟩
  obtain ⟨more, hMore, hNext⟩ := hSound.step hVisit
  refine ⟨qs ++ more, ?_, hNext⟩
  rw [map_append, hAsked, hMore]
  simp [asked]

end SceneExchange.Scene
