import SceneExchange.Proofs.Documents
import SceneExchange.Workload.Materials

/-!
# What a failed run leaves behind

A run that fails keeps the contexts it had entered and the inputs of the group it was in, and no
later run takes them back. Everything else that it leaves is reset before it is read. So a later
run shows what it would show on a new session exactly when no context and no inputs were left.

What is left in the log and in the depth of its indentation is not compared.
-/

namespace SceneExchange.Material

open SceneExchange.Graph Compile Material.Frame Likeness List Session

section Runs

variable {f : Forest} {w : Surroundings} {s s' t : Session} {l : List (Option Definition × Bool)}
  {alwaysTwoSided : Bool}

theorem ends_documents (l : List (Option Definition × Bool)) (alwaysTwoSided : Bool) {δ : Shift}
    (hExact : δ.exact) (h : Between δ w s.rewound s'.rewound) :
    Ends δ Eq (fun t t' => t.textures = t'.textures) (outcome (documents l alwaysTwoSided) f s)
      (outcome (documents l alwaysTwoSided) f s') := by
  rw [outcome_documents, outcome_documents]
  refine (ends_materials l alwaysTwoSided h).bindBoth fun ds ds' t t' hRaised h => ?_
  obtain rfl : ds = ds' := by
    rw [h.like.yields.amount_eq hExact] at hRaised
    exact forall₂_eq_eq_eq ▸ hRaised.imp fun _ _ h => h.eq
  obtain ⟨u, hRun, -, -, hTextures⟩ := exists_enterCurveTexture
  obtain ⟨u', hRun', -, -, hTextures'⟩ := exists_enterCurveTexture
  rw [outcome_bind_ok hRun, outcome_bind_ok hRun']
  refine .ok rfl ?_
  rw [hTextures, hTextures']
  exact h.closed_eq hExact

theorem contextual_of_failed {e : Fault} (h : Contextual s.contexts)
    (hRun : outcome (documents l alwaysTwoSided) f s = (.error e, t)) : Contextual t.contexts := by
  let w : Surroundings := ⟨s.around, s.contexts⟩
  let δ := unshifted [] (@Stores.lasting_true s.images)
  have hLike : Like δ (fun _ _ => True) w s.rewound.begun s.rewound.begun :=
    ⟨rfl, trivial, ⟨.nil, rfl, rfl, trivial⟩, rfl, rfl, rfl, rfl, s.contexts, h, (append_nil _).symm⟩
  have hBetween : Between δ w s.rewound s.rewound := ⟨hLike, fun _ => rfl⟩
  have hEnds := ends_documents (f := f) l alwaysTwoSided trivial hBetween
  rw [hRun] at hEnds
  cases hEnds with
  | error e hLike =>
    obtain ⟨-, ds, hContextual, hEntered⟩ := hLike.began
    rw [show t.contexts = _ from congrArg Around.contexts hLike.around, hEntered,
      show ds ++ δ.outer = ds from append_nil ds]
    exact hContextual
  | lost h => exact absurd trivial h

end Runs

/-- What the host hands to a run: its images, those it holds by name, and the textures of before. -/
structure Host where
  images : Array Texture.Image := #[]
  held : List Nat := []
  textures : Texture.Catalog := .empty

/-- A session that goes on with what a host hands to it. -/
def Session.on (s : Session) (h : Host) : Session :=
  { s with images := h.images, hostImages := h.held, textures := h.textures }

/-- What a run shows: its documents, or why it failed, and the textures. -/
def answer (l : List (Option Definition × Bool)) (alwaysTwoSided : Bool) (f : Forest) (s : Session) :
    Except Fault (List Document) × Texture.Catalog :=
  ((outcome (documents l alwaysTwoSided) f s).1, (outcome (documents l alwaysTwoSided) f s).2.textures)

/-- No run shows that the session is not a new one. -/
def Session.Forgotten (s : Session) : Prop :=
  ∀ l alwaysTwoSided f h, answer l alwaysTwoSided f (s.on h) = answer l alwaysTwoSided f (({} : Session).on h)

section Forgetting

variable {f : Forest} {s s' t : Session} {l : List (Option Definition × Bool)} {alwaysTwoSided : Bool}

theorem answer_eq_of_between {δ : Shift} {w : Surroundings} (hExact : δ.exact) (h : Between δ w s.rewound s'.rewound) :
    answer l alwaysTwoSided f s = answer l alwaysTwoSided f s' := by
  have hEnds := ends_documents (f := f) l alwaysTwoSided hExact h
  unfold answer
  generalize outcome (documents l alwaysTwoSided) f s = x at hEnds
  generalize outcome (documents l alwaysTwoSided) f s' = x' at hEnds
  cases hEnds with
  | ok hSame hTextures => exact congrArg₂ (fun ds catalog => (Except.ok ds, catalog)) hSame hTextures
  | error e hLike => exact congrArg (Prod.mk _) (congrArg Stores.textures (δ.eq_of_exact hExact hLike.yields.stores))
  | lost h => exact absurd hExact h

theorem answer_on (hInputs : s.groupInputs = .empty) (h : Host) : answer l alwaysTwoSided f (s.on h) =
      answer l alwaysTwoSided f (({ contexts := s.contexts.take 1 } : Session).on h) := by
  refine answer_eq_of_between (δ := unshifted s.contexts (@Stores.lasting_true h.images))
    (w := ⟨(s.on h).around, s.contexts.take 1⟩) trivial
    ⟨?_, ?_⟩
  · refine ⟨?_, trivial, ⟨.nil, rfl, rfl, trivial⟩, rfl, rfl, ?_, rfl, [], forall_mem_nil _, rfl⟩
    · simp only [core, begun, rewound, on, hInputs]
    · change s.contexts.head? = (s.contexts.take 1).head?
      cases s.contexts <;> rfl
  · intro hEmpty
    rw [show (s.on h).around.inputs = _ from hInputs] at hEmpty
    cases hEmpty

end Forgetting

section Asking

open SceneExchange.Workload

variable {s : Session} {k : String}

def askingForest (k : String) : Forest where
  trees := #[tree [outputNode, node "GROUP_INPUT" [] [shader k]] [⟨1, 0, 0, 0⟩]]

/-- A material that fails once its surface is compiled: its threshold is no number. -/
def clippedMaterial : Definition :=
  { definition "Sample" 0 with blendMethod := .text "CLIP", alphaThreshold := .null }

def thresholdFault : Fault :=
  .wrongKind ("'>' not supported between instances of 'float' and " ++ Text.quoted Datum.null.kindName)

def Session.asked (s : Session) (k : String) : Except Fault Operand :=
  match s.groupInputs.get? k with
  | none => .error (.missingKey (.text k))
  | some x => .ok x.1

def Session.clipFault (s : Session) (k : String) : Fault :=
  match s.asked k with
  | .error e => e
  | .ok _ => thresholdFault

theorem outcome_outputStep_asking (visit : Visit) (hMemo : s.memo = []) (hStations : s.stations = []) :
    outcome (outputStep visit ⟨0, 1, 0⟩ ⟨0, 0, 0⟩) (askingForest k) s = (s.asked k, s) := by
  rw [outcome_outputStep, hMemo, hStations]
  change outcome (Handlers.groupInput ⟨0, 1, 0⟩ ⟨0, 0, 0⟩) (askingForest k) s = _
  rw [outcome_groupInput, show ((askingForest k).outputSocket ⟨0, 1, 0⟩).identifier = k from rfl, asked]
  cases s.groupInputs.get? k with
  | none => rfl
  | some x => rfl

theorem outcome_linkedOperand_asking (visit : Visit) (hMemo : s.memo = []) (hStations : s.stations = []) :
    ∃ t, outcome (linkedOperand (outputStep visit) ⟨0, 1, 0⟩ ⟨0, 0, 0⟩) (askingForest k) s =
      (s.asked k, t) ∧ t.heightTextures = s.heightTextures := by
  let u : Session := { s with depth := s.depth + 1 }
  have hInner : outcome (outputStep visit ⟨0, 1, 0⟩ ⟨0, 0, 0⟩) (askingForest k) u = (s.asked k, u) :=
    outcome_outputStep_asking visit hMemo hStations
  rw [outcome_linkedOperand_shader _ rfl rfl]
  generalize s.asked k = r at hInner
  cases r with
  | error e => exact ⟨u, outcome_bind_error (outcome_nested_error hInner), rfl⟩
  | ok o =>
    let v : Session := { s with memo := (⟨0, 1, 0⟩, o) :: s.memo }
    exact ⟨v, (outcome_bind_ok (outcome_nested_ok hInner)).trans rfl, rfl⟩

theorem outcome_surfaceOperand_asking (hStations : s.stations = []) :
    ∃ t, outcome (surfaceOperand clippedMaterial ⟨0, 0⟩) (askingForest k) s = (s.asked k, t) ∧
      t.heightTextures = [] := by
  let u : Session := { s with heightTextures := [], memo := [], nodeMemo := [] }
  have hSource : (askingForest k).source? ⟨0, 0, 0⟩ = some ⟨0, 1, 0⟩ := rfl
  obtain ⟨log, hStep⟩ := outcome_fieldStep_linked (outputStep (compileWith 3)) .normal hSource rfl
  obtain ⟨t, hRun, hSame⟩ := outcome_linkedOperand_asking (s := { u with log := log })
    (compileWith 3) rfl hStations
  refine ⟨t, ?_, hSame⟩
  have hSurface : (askingForest k).inputNamed ⟨0, 0⟩ "Surface" = .ok ⟨0, 0, 0⟩ := rfl
  have hVolume : (askingForest k).inputNamed ⟨0, 0⟩ "Volume" = .ok ⟨0, 0, 1⟩ := rfl
  have hLinked : (askingForest k).isLinked ⟨0, 0, 0⟩ = true := rfl
  rw [surfaceOperand, outcome_bind_ok outcome_read, hSurface, hVolume, outcome_bind_ok (outcome_lift _),
    outcome_bind_ok (outcome_lift _), hLinked, Bool.not_true, Bool.and_false, if_neg Bool.false_ne_true, compileAnew,
    outcome_bind_ok (outcome_modify _), compileField, outcome_bind_ok outcome_read]
  exact hStep.trans hRun

theorem exists_surface_of_asking : ∃ u : Session,
    outcome (document (some clippedMaterial) false false) (askingForest k) s =
      outcome (surfaceOperand clippedMaterial ⟨0, 0⟩ >>= fun o =>
        surfaceDocument clippedMaterial "Sample" o false) (askingForest k) u ∧
    u.stations = [] ∧ u.groupInputs = s.groupInputs := by
  have hName : Name.legal clippedMaterial.name = .ok "Sample" := rfl
  have hOutput : (askingForest k).outputNode? clippedMaterial.tree = some ⟨0, 0⟩ := rfl
  have hNodes : clippedMaterial.useNodes = true := rfl
  rw [document, startMaterial, outcome_bind_ok (outcome_modify _), hNodes, if_pos rfl, write,
    outcome_bind_ok (outcome_modify _), nodeDocument, outcome_bind_ok (outcome_modify _), write,
    outcome_bind_ok (outcome_modify _), hName, outcome_bind_ok (outcome_lift _), outcome_bind_ok outcome_read, hOutput,
    showFrontSide, outcome_bind_ok (outcome_modify _)]
  exact ⟨_, rfl, rfl, rfl⟩

theorem outcome_document_asking : ∃ t,
    outcome (document (some clippedMaterial) false false) (askingForest k) s = (.error (s.clipFault k), t) := by
  obtain ⟨u, hRun, hStations, hInputs⟩ := exists_surface_of_asking
  have hAsked : u.asked k = s.asked k := by
    rw [asked, asked, hInputs]
  obtain ⟨t, hSurface, hHeights⟩ := outcome_surfaceOperand_asking hStations
  rw [hRun, clipFault, ← hAsked]
  generalize u.asked k = r at hSurface
  cases r with
  | error e => exact ⟨t, outcome_bind_error hSurface⟩
  | ok o =>
    let tied : Session := { t with heightTextures := [], expressions := t.expressions ++ #[] }
    have hTied : outcome (tieHeights o) (askingForest k) t = (.ok (), tied) := by
      refine outcome_bind_ok (a := none) ?_
      rw [emitHeights, outcome_get, hHeights]
      rfl
    have hBlend : outcome (surfaceEntries clippedMaterial o false) (askingForest k) tied =
        (.error thresholdFault, tied) := rfl
    exact ⟨tied, (outcome_bind_ok hSurface).trans ((outcome_bind_ok hTied).trans (outcome_bind_error hBlend))⟩

theorem answer_asking :
    (answer [(some clippedMaterial, false)] false (askingForest k) s).1 = .error (s.clipFault k) := by
  obtain ⟨t, hRun⟩ := outcome_document_asking
  have hMaterials : outcome ([(some clippedMaterial, false)].mapM fun x => document x.1 x.2 false)
      (askingForest k) s.rewound = (.error (s.clipFault k), t) := by
    rw [mapM_cons]
    exact outcome_bind_error hRun
  rw [answer, outcome_documents, outcome_bind_error hMaterials]

theorem Session.Forgotten.inputs (h : s.Forgotten) : s.groupInputs = .empty := by
  generalize hInputs : s.groupInputs = g
  obtain ⟨entries⟩ := g
  cases entries with
  | nil => rfl
  | cons x rest =>
    obtain ⟨k, x⟩ := x
    have hShown := congrArg Prod.fst (h [(some clippedMaterial, false)] false (askingForest k) {})
    rw [answer_asking, answer_asking] at hShown
    have hFault : (s.on {}).clipFault k = thresholdFault := by
      have hGet : (s.on {}).groupInputs.get? k = some x := by
        change s.groupInputs.get? k = _
        rw [hInputs]
        simp [Table.get?]
      rw [clipFault, asked, hGet]
    rw [hFault] at hShown
    cases hShown

def photoForest : Forest where
  trees := #[tree [outputNode, node "EMISSION" [sand "Color", half "Strength"] [shader "Emission"],
    imageNode "FLAT" 0] [⟨1, 0, 0, 0⟩, ⟨2, 0, 1, 0⟩]]

def sizes (x : Except Fault (List Document) × Texture.Catalog) : Option (List Nat) :=
  x.1.toOption.map fun ds => ds.map fun d => (d.expressions.getD []).length

theorem Session.Forgotten.contexts (h : s.Forgotten) (hContexts : Contextual s.contexts) : s.contexts = [] := by
  generalize hLeft : s.contexts = ds
  cases ds with
  | nil => rfl
  | cons d rest =>
    have hShown := congrArg sizes (h [(some (definition "Photo" 0), true)] false photoForest
      { images := Workload.images })
    rw [answer_on h.inputs, hLeft, take_succ_cons, take_zero] at hShown
    rw [hLeft] at hContexts
    rcases hContexts d mem_cons_self with rfl | rfl
    · exact absurd hShown (by decide +kernel)
    · exact absurd hShown (by decide +kernel)

end Asking

section Failures

variable {f : Forest} {s t : Session} {l : List (Option Definition × Bool)} {alwaysTwoSided : Bool} {e : Fault}

/-- A failed run is forgotten exactly if it failed outside all contexts and groups with inputs. -/
theorem forgotten_iff_of_failed (hContexts : Contextual s.contexts)
    (hRun : outcome (documents l alwaysTwoSided) f s = (.error e, t)) :
    t.Forgotten ↔ t.contexts = [] ∧ t.groupInputs = .empty := by
  have hLeft := contextual_of_failed hContexts hRun
  constructor
  · intro h
    exact ⟨h.contexts hLeft, h.inputs⟩
  · rintro ⟨hEmpty, hInputs⟩ l alwaysTwoSided f h
    rw [answer_on hInputs, hEmpty]
    rfl

open SceneExchange.Workload in
def failingForest (i : Nat) : Forest where
  trees := #[tree [outputNode, node "BSDF_DIFFUSE" [sand "Color", half "Roughness", computed "Normal"] [shader "BSDF"],
      node "NORMAL_MAP" [half "Strength", sand "Color"] [computed "Normal"],
      withSettings [("mode", .text "HSL")] (node "SEPARATE_COLOR" [sand "Color"]
        [half "Red", half "Green", half "Blue"])]
    [⟨1, 0, 0, 0⟩, ⟨2, 0, 1, 2⟩, ⟨3, 0, 2, i⟩]]

def failingRun (i : Nat) : Except Fault (List Document) × Session :=
  outcome (documents [(some (Workload.definition "Sample" 0), true)] false) (failingForest i) {}

/-- The strength is read outside the context of normals, the color inside it. -/
theorem forgotten_strength_not_color : Contextual ({} : Session).contexts ∧
    (∃ e t, failingRun 0 = (.error e, t) ∧ t.Forgotten) ∧
    ∃ e t, failingRun 1 = (.error e, t) ∧ ¬t.Forgotten := by
  have hContexts : Contextual ({} : Session).contexts := forall_mem_nil _
  have hFails {i n : Nat} (h : ((failingRun i).1.isOk, (failingRun i).2.contexts.length,
      (failingRun i).2.groupInputs.entries.length) = (false, n, 0)) :
      ∃ e t, failingRun i = (.error e, t) ∧ t.contexts.length = n ∧ t.groupInputs = .empty := by
    generalize failingRun i = x at h
    obtain ⟨r, t⟩ := x
    simp only [Prod.mk.injEq] at h
    obtain ⟨hFailed, hLeft, hInputs⟩ := h
    cases r with
    | ok a => cases hFailed
    | error e => exact ⟨e, t, rfl, hLeft, congrArg Table.mk (length_eq_zero_iff.mp hInputs)⟩
  obtain ⟨e, t, hStrength, hLeft, hInputs⟩ := hFails (i := 0) (n := 0) (by decide +kernel)
  obtain ⟨e', t', hColor, hLeft', -⟩ := hFails (i := 1) (n := 1) (by decide +kernel)
  refine ⟨hContexts, ⟨e, t, hStrength, ?_⟩, e', t', hColor, fun h => ?_⟩
  · exact (forgotten_iff_of_failed hContexts hStrength).mpr ⟨length_eq_zero_iff.mp hLeft, hInputs⟩
  · obtain ⟨hNone, -⟩ := (forgotten_iff_of_failed hContexts hColor).mp h
    rw [hNone] at hLeft'
    cases hLeft'

end Failures

end SceneExchange.Material
