import SceneExchange.Proofs.Likeness

/-!
# Two runs of whole materials

A material starts with no expressions and clears its tables before it reads them, so all that it
sees of the materials before it are the contexts, the inputs of a group that was not finished, and
the number of its first curve. Two runs that agree on these, but for the numbers of the curves,
have the same documents but for these numbers.
-/

namespace SceneExchange.Material

open SceneExchange.Graph Compile Material.Frame Likeness List Session Texture

/-- Documents that differ in the numbers of curves only. -/
structure Document.Raised (k : Nat) (d d' : Document) : Prop where
  name : d.name = d'.name
  expressions : Option.Rel (Material.Raised k) d.expressions d'.expressions
  entries : d.entries = d'.entries

theorem Document.Raised.eq {d d' : Document} (h : d.Raised 0 d') : d = d' := by
  obtain ⟨name, es, entries⟩ := d
  obtain ⟨name', es', entries'⟩ := d'
  obtain ⟨rfl, hExpressions, rfl⟩ := h
  cases hExpressions with
  | some hRaised => rw [hRaised.eq]
  | none => rfl

/-- Two runs that return related results in related sessions, or fail for the same cause. Where
rows may differ, the first one may also fail alone. -/
inductive Ends {α : Type} (δ : Shift) (A : α → α → Prop) (Q : Session → Session → Prop) :
    Except Fault α × Session → Except Fault α × Session → Prop
  | ok {a a' : α} {t t' : Session} (hA : A a a') (h : Q t t') : Ends δ A Q (.ok a, t) (.ok a', t')
  | error (e : Fault) {w : Surroundings} {t t' : Session} (h : Like δ (fun _ _ => True) w t t') :
      Ends δ A Q (.error e, t) (.error e, t')
  | lost {e : Fault} {t : Session} {x' : Except Fault α × Session} (h : ¬δ.exact) : Ends δ A Q (.error e, t) x'

namespace Ends

variable {α β : Type} {f : Forest} {δ : Shift} {s s' : Session} {m : Compile α} {A : α → α → Prop}
  {B : β → β → Prop} {Q Q' : Session → Session → Prop}

theorem mono {x x' : Except Fault α × Session} (h : Ends δ A Q x x') (hQ : ∀ t t', Q t t' → Q' t t') :
    Ends δ A Q' x x' := by
  cases h with
  | ok hA h => exact .ok hA (hQ _ _ h)
  | error e h => exact .error e h
  | lost h => exact .lost h

theorem bindBoth {k k' : α → Compile β} (hm : Ends δ A Q (outcome m f s) (outcome m f s'))
    (hk : ∀ a a' t t', A a a' → Q t t' → Ends δ B Q' (outcome (k a) f t) (outcome (k' a') f t')) :
    Ends δ B Q' (outcome (m >>= k) f s) (outcome (m >>= k') f s') := by
  generalize hRun : outcome m f s = x at hm
  generalize hRun' : outcome m f s' = x' at hm
  cases hm with
  | ok hA h =>
    rw [outcome_bind_ok hRun, outcome_bind_ok hRun']
    exact hk _ _ _ _ hA h
  | error e h =>
    rw [outcome_bind_error hRun, outcome_bind_error hRun']
    exact .error e h
  | lost h =>
    rw [outcome_bind_error hRun]
    exact .lost h

theorem bind {k : α → Compile β} (hm : Ends δ Eq Q (outcome m f s) (outcome m f s'))
    (hk : ∀ a t t', Q t t' → Ends δ B Q' (outcome (k a) f t) (outcome (k a) f t')) :
    Ends δ B Q' (outcome (m >>= k) f s) (outcome (m >>= k) f s') := by
  refine hm.bindBoth fun a a' t t' hSame h => ?_
  subst hSame
  exact hk a t t' h

theorem mapM {γ : Type} {g : γ → Compile β}
    (hg : ∀ x t t', Q t t' → Ends δ B Q (outcome (g x) f t) (outcome (g x) f t')) (h : Q s s') (xs : List γ) :
    Ends δ (Forall₂ B) Q (outcome (xs.mapM g) f s) (outcome (xs.mapM g) f s') := by
  induction xs generalizing s s' with
  | nil =>
    rw [mapM_nil]
    exact .ok .nil h
  | cons x xs ih =>
    rw [mapM_cons]
    refine (hg x s s' h).bindBoth fun b b' t t' hB h => (ih h).bindBoth fun bs bs' t t' hBs h => ?_
    exact .ok (.cons hB hBs) h

variable {R : Ledger → Ledger → Prop} {w : Surroundings}

theorem of_agree {P : (frame f δ R).Fact} {A : α → (frame f δ R).Fact} (hm : Agrees P m A) (hP : P.holds w)
    (h : Like δ R w s s') :
    Ends δ Eq (Like δ R w) (outcome m f s) (outcome m f s') := by
  have hJoint : Joint w A (outcome m f s) (outcome m f s') := hm _ _ _ hP h
  generalize outcome m f s = x at hJoint
  generalize outcome m f s' = x' at hJoint
  cases hJoint with
  | done returns related =>
    obtain rfl := returns
    exact .ok rfl related
  | failed related => exact .error _ (related.relate related.core rfl rfl trivial related.yields)
  | lost lenient => exact .lost lenient

theorem of_blind (hm : Blind m) (h : Like δ R w s s') : Ends δ Eq (Like δ R w) (outcome m f s) (outcome m f s') :=
  of_agree (P := .pure True) (agree_of_blind hm) trivial h

end Ends

section Documents

variable {f : Forest} {δ : Shift} {w : Surroundings} {s s' : Session} {R : Ledger → Ledger → Prop}

theorem ends_assemble {P : (frame f δ R).Fact} {m : Compile (List Entry)}
    (hm : Agrees P m (emission f δ R).entries) (hP : P.holds w) (name : String) (h : Like δ R w s s') :
    Ends δ (Document.Raised δ.amount) (Like δ R w) (outcome (do assemble name (← m)) f s)
      (outcome (do assemble name (← m)) f s') := by
  refine (Ends.of_agree hm hP h).bind fun xs t t' h => ?_
  exact .ok ⟨rfl, .some h.yields.expressions, rfl⟩ h

def Ready (l l' : Ledger) : Prop := l.heightTextures = l'.heightTextures ∧ l.twoSided = l'.twoSided

def Opened (l l' : Ledger) : Prop := l.stations = [] ∧ l'.stations = [] ∧ l.twoSided = l'.twoSided

theorem not_looksUp_heightChain (start : Int) (es : List Int) : ∀ e ∈ heightChain start es, ¬e.LooksUp := by
  have hCall (parts : List Part) : ¬(Expression.call Function.passthrough parts).LooksUp :=
    Expression.not_looksUp_of_ordinary (f := default) (ordinary_call (isPath_content (by decide)))
  induction es generalizing start with
  | nil => exact forall_mem_nil _
  | cons e rest ih =>
    cases rest with
    | nil => exact forall_mem_singleton.mpr (hCall _)
    | cons e' rest => exact forall_mem_cons.mpr ⟨hCall _, ih (start + 1)⟩

theorem ends_emitHeights (h : Like δ Ready w s s') :
    Ends δ Eq (Like δ Ready w) (outcome emitHeights f s) (outcome emitHeights f s') := by
  obtain ⟨hHeights, hSides⟩ := h.ledgers
  change s.heightTextures = s'.heightTextures at hHeights
  let chain := heightChain s.expressions.size s.heightTextures
  rw [emitHeights, outcome_get, outcome_get]
  dsimp only
  rw [← hHeights, ← h.size_eq]
  refine .ok rfl (h.relate h.core rfl rfl ⟨rfl, hSides⟩ ⟨?_, h.yields.curveCount, h.yields.stores⟩)
  change Raised δ.amount (s.expressions ++ chain.toArray).toList (s'.expressions ++ chain.toArray).toList
  rw [Array.toList_append, Array.toList_append]
  exact h.yields.expressions.append (not_looksUp_heightChain _ _)

theorem ends_tieHeights (o : Operand) (h : Like δ Ready w s s') :
    Ends δ Eq (Like δ Ready w) (outcome (tieHeights o) f s) (outcome (tieHeights o) f s') := by
  refine (ends_emitHeights h).bind fun start t t' h => ?_
  cases start with
  | none => exact .ok rfl h
  | some start =>
    let E := emission f δ Ready
    exact .of_agree (P := ((E.value o).and (E.shader o)).and (E.position start))
      (E.tieColor trivial) ⟨⟨trivial, trivial⟩, trivial⟩ h

theorem decideSides_agree {P : (frame f δ Ready).Fact} (culls wanted : Bool) :
    Agrees P (decideSides culls wanted) fun _ => .pure True := by
  intro w s s' hP h
  obtain ⟨hHeights, hSides⟩ := h.ledgers
  change s.twoSided = s'.twoSided at hSides
  cases culls with
  | true => cases wanted <;>
      exact .done rfl (h.relate h.core rfl rfl ⟨hHeights, rfl⟩ h.yields) trivial
  | false =>
    cases wanted with
    | true => exact .done rfl (h.relate h.core rfl rfl ⟨hHeights, rfl⟩ h.yields) trivial
    | false =>
      change Joint w _ (.ok s.twoSided, s) (.ok s'.twoSided, s')
      rw [hSides]
      exact .done rfl h trivial

theorem ends_surface (m : Definition) (name : String) (o : Operand) (alwaysTwoSided : Bool) (h : Like δ Ready w s s') :
    Ends δ (Document.Raised δ.amount) (Like δ Ready w) (outcome (surfaceDocument m name o alwaysTwoSided) f s)
      (outcome (surfaceDocument m name o alwaysTwoSided) f s') := by
  let E := emission f δ Ready
  refine (ends_tieHeights o h).bind fun _ t t' h => ?_
  exact ends_assemble (P := (E.value o).and (E.shader o)) (E.surfaceEntries trivial fun _ => decideSides_agree)
    ⟨trivial, trivial⟩ name h

theorem ends_volume (m : Definition) (h : Like δ Opened w s s') :
    Ends δ Eq (Like δ Ready w) (outcome (volumeOperand m) f s) (outcome (volumeOperand m) f s') := by
  refine (Ends.of_blind .write h).bind fun _ t t' h => ?_
  refine (Ends.of_agree (P := .pure True) (emission f δ Opened).clearShader trivial h).bind fun clear t t' h => ?_
  exact .ok rfl (h.relate h.core rfl rfl ⟨rfl, h.ledgers.2.2⟩ h.yields)

theorem ends_compileAnew (field : SocketRef) (h : Like δ Opened w s s') :
    Ends δ Eq (Like δ Ready w) (outcome (compileAnew field) f s) (outcome (compileAnew field) f s') := by
  obtain ⟨hStations, hStations', hSides⟩ := h.ledgers
  change s.stations = [] at hStations
  change s'.stations = [] at hStations'
  change s.twoSided = s'.twoSided at hSides
  let H := compilation f δ (K := fun _ _ _ => True) fun _ => id
  let reset (s : Session) : Session := { s with heightTextures := [], memo := [], nodeMemo := [] }
  have hReset : Like δ (Kin fun _ _ _ => True) w (reset s) (reset s') := by
    refine h.relate h.core rfl rfl ⟨?_, trivial⟩ h.yields
    simp only [reset, ledger, hStations, hStations', hSides]
  have hField := Ends.of_agree (P := H.inside (nodeOf field)) (m := compileField field) H.compileField trivial hReset
  refine hField.mono fun t t' h => h.relate h.core rfl rfl ?_ h.yields
  obtain ⟨hSame, -⟩ := h.ledgers
  exact ⟨(congrArg Ledger.heightTextures hSame :), (congrArg Ledger.twoSided hSame :)⟩

theorem ends_surfaceOperand (m : Definition) (output : NodeRef) (h : Like δ Opened w s s') :
    Ends δ Eq (Like δ Ready w) (outcome (surfaceOperand m output) f s) (outcome (surfaceOperand m output) f s') := by
  change Ends _ _ _ (outcome (lift (f.inputNamed output "Surface") >>= fun surface => _) f s)
    (outcome (lift (f.inputNamed output "Surface") >>= fun surface => _) f s')
  refine (Ends.of_blind .lift h).bind fun surface t t' h => ?_
  refine (Ends.of_blind .lift h).bind fun volume t t' h => ?_
  split
  · exact ends_volume m h
  · exact ends_compileAnew surface h

theorem ends_nodeDocument (m : Definition) (alwaysTwoSided : Bool) (h : Like δ (fun _ _ => True) w s s') :
    Ends δ (Document.Raised δ.amount) (Like δ (fun _ _ => True) w) (outcome (nodeDocument m alwaysTwoSided) f s)
      (outcome (nodeDocument m alwaysTwoSided) f s') := by
  have hCleared : Like δ (fun l l' => l.stations = [] ∧ l'.stations = []) w { s with stations := [] }
      { s' with stations := [] } := h.relate h.core rfl rfl ⟨rfl, rfl⟩ h.yields
  refine (Ends.ok rfl hCleared).bind fun _ t t' h => ?_
  refine (Ends.of_blind .write h).bind fun _ t t' h => (Ends.of_blind .lift h).bind fun name t t' h => ?_
  have hRead (s : Session) : outcome read f s = (.ok f, s) := rfl
  rw [outcome_bind_ok (hRead t), outcome_bind_ok (hRead t')]
  split
  · refine (Ends.of_blind .warnOnceAs h).bind fun _ t t' h => ?_
    exact .ok ⟨rfl, .none, rfl⟩ (h.relate h.core rfl rfl trivial h.yields)
  · have hFront : Like δ Opened w { t with twoSided := false } { t' with twoSided := false } :=
      h.relate h.core rfl rfl ⟨h.ledgers.1, h.ledgers.2, rfl⟩ h.yields
    refine (Ends.ok rfl hFront).bind fun _ t t' h => ?_
    refine (ends_surfaceOperand m _ h).bind fun o t t' h => ?_
    exact (ends_surface m name o alwaysTwoSided h).mono fun t t' h => h.relate h.core rfl rfl trivial h.yields

def Session.begun (s : Session) : Session :=
  { s with expressions := #[], bundles := #[], reportedWarnings := [], reportedErrors := [], owned := false }

/-- Sessions between two materials; bundles stay known while inputs of a group may name them. -/
structure Between (δ : Shift) (w : Surroundings) (s s' : Session) : Prop where
  like : Like δ (fun _ _ => True) w s.begun s'.begun
  bundles : w.first.inputs.isEmpty = false → s.bundles = s'.bundles

theorem Like.between (h : Like δ (fun _ _ => True) w s s') : Between δ w s s' where
  like := h.relate (congrArg begun h.core) rfl rfl h.ledgers ⟨.nil, h.yields.curveCount, h.yields.stores⟩
  bundles _ := show s.core.bundles = s'.core.bundles from congrArg bundles h.core

/-- What stays true of stores that are added to. Where runs have to fail alike it stays true of a curve
without a row too. -/
structure Stores.Lasting (exact : Prop) (images : Array Texture.Image) (p : Stores → Prop) : Prop where
  counted : ∀ {c}, (exact ∨ ∃ place, curveRow c.curveCount = .ok place) → p c → p c.counted
  baked : ∀ {c place row}, fillsRow row → curveRow c.curveCount = .ok place → p c → p (c.baked place row)
  entered : ∀ {c name image hint}, Name.legal (images[image]?.getD default).name = .ok name → p c →
    p (c.entered name image hint)

theorem Stores.lasting_true {images : Array Texture.Image} : Lasting True images fun _ => True :=
  ⟨fun _ => id, fun _ _ => id, fun _ => id⟩

def unshifted (outer : List Datum) {exact : Prop} {images : Array Texture.Image} {p : Stores → Prop}
    (h : Stores.Lasting exact images p) : Shift where
  amount := 0
  exact := exact
  outer := outer
  images := images
  stores c c' := c = c' ∧ p c
  eq_of_exact _ h := h.1
  counted := by
    rintro c _ hRow ⟨rfl, hp⟩
    exact ⟨rfl, h.counted hRow hp⟩
  baked := by
    rintro c _ place place' row hFills hRow hRow' ⟨rfl, hp⟩
    obtain rfl := Except.ok.inj (hRow.symm.trans hRow')
    exact ⟨rfl, h.baked hFills hRow hp⟩
  entered := by
    rintro c _ name image hint hName ⟨rfl, hp⟩
    exact ⟨rfl, h.entered hName hp⟩

theorem ends_startMaterial (owned : Bool) (h : Between δ w s s') :
    Ends δ Eq (Like δ (fun _ _ => True) w) (outcome (startMaterial owned) f s) (outcome (startMaterial owned) f s') := by
  have hInputs : s.groupInputs = w.first.inputs := congrArg Around.inputs h.like.around
  have hInputs' : s'.groupInputs = w.first.inputs := h.like.inputs_eq.symm.trans hInputs
  let bundles (s : Session) := if s.groupInputs.isEmpty then #[] else s.bundles
  have hBundles : bundles s = bundles s' := by
    simp only [bundles, hInputs, hInputs']
    split
    · rfl
    · next hEmpty => exact h.bundles (Bool.eq_false_iff.mpr hEmpty)
  change Ends _ _ _ (.ok (), { s.begun with owned := owned, bundles := bundles s })
    (.ok (), { s'.begun with owned := owned, bundles := bundles s' })
  rw [hBundles]
  refine .ok rfl (h.like.relate ?_ rfl rfl h.like.ledgers h.like.yields)
  exact congrArg (fun t : Session => { t with owned := owned, bundles := bundles s' }) h.like.core

theorem ends_document (m : Option Definition) (owned alwaysTwoSided : Bool) (h : Between δ w s s') :
    Ends δ (Document.Raised δ.amount) (Like δ (fun _ _ => True) w) (outcome (document m owned alwaysTwoSided) f s)
      (outcome (document m owned alwaysTwoSided) f s') := by
  refine (ends_startMaterial owned h).bind fun _ t t' h => ?_
  let E := emission f δ fun _ _ => True
  cases m with
  | none =>
    refine (Ends.of_blind .write h).bind fun _ t t' h => ?_
    exact ends_assemble (P := .pure True) E.defaultEntries trivial _ h
  | some m =>
    dsimp only
    split
    · exact (Ends.of_blind .write h).bind fun _ t t' h => ends_nodeDocument m alwaysTwoSided h
    · refine (Ends.of_blind .write h).bind fun _ t t' h => ?_
      refine (Ends.of_blind .lift h).bind fun name t t' h => ?_
      exact ends_assemble (P := .pure True) E.basicEntries trivial name h

/-- Two sessions between materials are as alike after any number of materials as they were before. -/
theorem ends_materials (l : List (Option Definition × Bool)) (alwaysTwoSided : Bool) (h : Between δ w s s') :
    Ends δ (Forall₂ (Document.Raised δ.amount)) (Between δ w)
      (outcome (l.mapM fun x => document x.1 x.2 alwaysTwoSided) f s)
      (outcome (l.mapM fun x => document x.1 x.2 alwaysTwoSided) f s') :=
  .mapM (Q := Between δ w) (fun x _ _ h => (ends_document x.1 x.2 alwaysTwoSided h).mono fun _ _ h => h.between) h l

end Documents

section Curves

variable {f : Forest} {s : Session}

def Session.rewound (s : Session) : Session := { s with curveCount := 0, curveRows := .empty }

def Session.curvesPlace (s : Session) : Nat :=
  (s.hostImages.find? fun i => (s.images[i]?.getD default).name == curvesName).getD s.images.size

def Session.closed (s : Session) : Texture.Catalog :=
  if s.curveCount != 0 then (enter s.textures curvesName s.curvesPlace defaultHint).1
  else s.textures

theorem outcome_curvesImage : ∃ u, outcome curvesImage f s = (.ok s.curvesPlace, u) ∧
    (u.images[s.curvesPlace]?.getD default).name = curvesName ∧ u.yield = s.yield := by
  have hHeld : outcome heldCurves? f s = (.ok (s.hostImages.find? _), s) := rfl
  rw [curvesImage, outcome_bind_ok hHeld]
  unfold curvesPlace
  cases hFind : s.hostImages.find? fun i => (s.images[i]?.getD default).name == curvesName with
  | some i =>
    have hName := find?_some hFind
    exact ⟨s, rfl, eq_of_beq hName, rfl⟩
  | none =>
    refine ⟨_, rfl, ?_, rfl⟩
    simp

theorem exists_enterCurveTexture : ∃ t, outcome enterCurveTexture f s = (.ok (), t) ∧
    t.curveCount = s.curveCount ∧ t.curveRows = s.curveRows ∧ t.textures = s.closed := by
  change ∃ t, outcome (if s.curveCount != 0 then _ else pure ()) f s = _ ∧ _
  unfold closed
  split
  · obtain ⟨u, hImage, hName, hYield⟩ := outcome_curvesImage
    have hLegal : Name.legal curvesName = .ok curvesName := rfl
    refine ⟨u.entering curvesName s.curvesPlace defaultHint, ?_, congrArg (·.curveCount) hYield,
      congrArg (·.curveRows) hYield, ?_⟩
    · rw [outcome_bind_ok hImage]
      refine outcome_bind_ok (a := curvesName) ?_
      rw [outcome_enterTexture, hName, hLegal]
    · exact congrArg (fun y : Yield => (enter y.textures _ _ _).1) hYield
  · exact ⟨s, rfl, rfl, rfl, rfl⟩

theorem outcome_documents (l : List (Option Definition × Bool)) (alwaysTwoSided : Bool) :
    outcome (documents l alwaysTwoSided) f s =
      outcome ((l.mapM fun x => document x.1 x.2 alwaysTwoSided) >>= fun ds => do
        enterCurveTexture
        pure ds) f s.rewound := rfl

theorem Between.closed_eq {δ : Shift} {w : Surroundings} {s' : Session} (h : Between δ w s s') (hExact : δ.exact) :
    s.closed = s'.closed := by
  have hImages : s.images = s'.images := h.like.images_eq
  have hHost : s.hostImages = s'.hostImages := (congrArg Session.hostImages h.like.core :)
  have hSame := δ.eq_of_exact hExact h.like.yields.stores
  have hCount : s.curveCount = s'.curveCount := congrArg Stores.curveCount hSame
  have hTextures : s.textures = s'.textures := congrArg Stores.textures hSame
  simp only [closed, curvesPlace, hImages, hHost, hCount, hTextures]

end Curves

end SceneExchange.Material
