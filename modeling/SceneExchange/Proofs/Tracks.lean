import Mathlib.Algebra.Group.Commute.Units
import Mathlib.Algebra.Order.Ring.Rat
import Mathlib.Algebra.Order.Field.Basic
import Mathlib.Tactic.Linarith
import Mathlib.Tactic.NormNum
import SceneExchange.Proofs.Inverse
import SceneExchange.Scene.Transform

/-!
# Tracks and written matrices

A track holds matrices as seen from the parent; the scene holds the matrix of each object. In exact
arithmetic the two compose if and only if what the kind of the parent makes of its own axes is what
the track leaves out of the child, and what the child does to its parent commutes with it. Cameras,
lights and scaled probes as parents, and scaled probes as children, are where this fails.
-/

namespace SceneExchange.Geometry

open Scene Scene

section Placing

variable {α : Type} [Scalar α]

/-- The engine's matrix of an object of a kind, scaled where it is a probe that has a factor. -/
def placed (kind : String) (factor : Option α) (m : Matrix α) : Except Fault (Matrix α) := do
  let view ← toEngineView (looks kind) m
  match factor with
  | some f => pure (if kind == "LIGHT_PROBE" then view * .scale f else view)
  | none => pure view

def placedUnder (kind : String) (parent : Option (Matrix α)) (m : Matrix α) : Except Fault (Matrix α) := do
  toEngineView (kind == "CAMERA" || kind == "LIGHT") (← relativeTo parent m)

end Placing

section Running

variable {s : Scene} {o : Scene.Object} {i : Scene.Instance} {m : Matrix Float}

/-- The factor of an object, which only probes have. -/
def factorOf (s : Scene) (o : Scene.Object) : Except Fault (Option Float) :=
  if o.kind == "LIGHT_PROBE" then do probeScale (← s.settingsOf o "type") else pure none

theorem ok_bind {ε α β : Type} (a : α) (k : α → Except ε β) : (Except.ok a >>= k) = k a := rfl

theorem looks_eq_false_of_probe {kind : String} (h : (kind == "LIGHT_PROBE") = true) : looks kind = false := by
  rw [eq_of_beq h]
  decide

theorem writtenMatrix_eq_placed {f : Option Float} (h : factorOf s o = .ok f) :
    s.writtenMatrix o m = placed o.kind f m := by
  unfold writtenMatrix placed
  cases toEngineView (looks o.kind) m with
  | error e => rfl
  | ok view =>
    unfold factorOf at h
    split at h
    case isTrue hKind =>
      rw [hKind, looks_eq_false_of_probe hKind]
      simp only [ok_bind, Bool.not_false, Bool.and_true, if_true]
      rw [← bind_assoc, h]
      cases f <;> rfl
    case isFalse hKind =>
      obtain rfl := Except.ok.inj h
      change (if !looks o.kind && o.kind == "LIGHT_PROBE" then _ else _) = _
      rw [Bool.eq_false_iff.mpr hKind, Bool.and_false]
      rfl

theorem localMatrix_eq_placedUnder (hMatrix : s.instanceMatrix i = .ok m) (hObject : s.demand i.object "type" = .ok o) :
    s.localMatrix i = placedUnder o.kind ((i.parent.or o.parent).map fun p => (s.object p).matrix) m := by
  have hParent : s.demand i.object "parent" = .ok o := by
    cases hi : i.object with
    | none => rw [hi] at hObject; cases hObject
    | some k => rw [hi] at hObject; exact hObject
  unfold localMatrix placedUnder
  rw [hMatrix, hParent, hObject]
  cases i.parent with
  | none => simp only [ok_bind, pure_bind, Option.none_or]
  | some p => simp only [ok_bind, pure_bind, Option.some_or]

end Running

section Exact

variable {K : Type} [Field K] [LinearOrder K]

namespace Matrix

theorem mul_eq (a b : Matrix K) : a * b = ⟨rowTimes a.r0 b, rowTimes a.r1 b, rowTimes a.r2 b, rowTimes a.r3 b⟩ := rfl

theorem diagonal_mul (a b c d a' b' c' d' : K) :
    diagonal a b c d * diagonal a' b' c' d' = diagonal (a * a') (b * b') (c * c') (d * d') := by
  simp [mul_eq, rowTimes, diagonal, dot_eq, column0, column1, column2, column3]

theorem one_eq_diagonal : (1 : Matrix K) = diagonal 1 1 1 1 := by
  rw [one_def, identity, one_eq]

theorem scale_eq (f : K) : scale f = diagonal f f f 1 := by
  rw [scale, one_eq]

def trace (m : Matrix K) : K := m.r0.x + m.r1.y + m.r2.z + m.r3.w

theorem trace_mul_comm (a b : Matrix K) : trace (a * b) = trace (b * a) := by
  simp only [trace, mul_eq, rowTimes, dot_eq, column0, column1, column2, column3]
  ring

theorem trace_conj (b : (Matrix K)ˣ) {k x : Matrix K} (h : k * b = b * x) : trace k = trace x := by
  have hConj : x = ↑b⁻¹ * (k * b) := by rw [h, Units.inv_mul_cancel_left]
  rw [hConj, trace_mul_comm, mul_assoc, Units.mul_inv, mul_one]

end Matrix

open Geometry.Matrix

def forwardUnit : (Matrix K)ˣ where
  val := forward
  inv := ⟨⟨0, 0, -1, 0⟩, ⟨1, 0, 0, 0⟩, ⟨0, -1, 0, 0⟩, ⟨0, 0, 0, 1⟩⟩
  val_inv := by
    simp [forward, mul_eq, rowTimes, dot_eq, column0, column1, column2, column3, ratio_eq, one_eq_diagonal, diagonal]
  inv_val := by
    simp [forward, mul_eq, rowTimes, dot_eq, column0, column1, column2, column3, ratio_eq, one_eq_diagonal, diagonal]

/-- An object in exact arithmetic: its kind, the factor of its probe and its matrix. -/
structure Figure (K : Type) [Field K] [LinearOrder K] where
  kind : String
  factor : Option K
  matrix : (Matrix K)ˣ

namespace Figure

/-- The matrix that is written for it. -/
def written (o : Figure K) : Except Fault (Matrix K) := placed o.kind o.factor o.matrix

/-- Its matrix in a track. -/
def tracked (o : Figure K) (parent : Option (Figure K)) : Except Fault (Matrix K) :=
  placedUnder o.kind (parent.map (·.matrix)) o.matrix

/-- What its kind makes of its own axes. -/
def own (o : Figure K) : Matrix K :=
  if looks o.kind then forward else if o.kind == "LIGHT_PROBE" then o.factor.elim 1 scale else 1

def turn (o : Figure K) : (Matrix K)ˣ := if o.kind == "CAMERA" || o.kind == "LIGHT" then forwardUnit else 1

/-- What a track leaves out. -/
def missed (o : Figure K) : Matrix K := if o.kind == "CAMERA" || o.kind == "LIGHT" then 1 else o.own

theorem own_eq (o : Figure K) : o.own = o.missed * o.turn := by
  unfold missed turn
  split
  case isTrue hKind =>
    have hLooks : looks o.kind = true := by
      obtain hKind | hKind := Bool.or_eq_true_iff.mp hKind <;> rw [eq_of_beq hKind] <;> decide
    rw [own, if_pos hLooks, one_mul]
    rfl
  case isFalse => rw [Units.val_one, mul_one]

end Figure

theorem scale_one : (scale 1 : Matrix K) = 1 := by
  rw [scale_eq, one_eq_diagonal]

def IsStance (k : Matrix K) : Prop := k = forward ∨ ∃ f, k = scale f

theorem Figure.isStance_own (o : Figure K) : IsStance o.own := by
  unfold Figure.own
  split
  · exact .inl rfl
  · right
    split
    · cases o.factor with
      | none => exact ⟨1, scale_one.symm⟩
      | some f => exact ⟨f, rfl⟩
    · exact ⟨1, scale_one.symm⟩

theorem Figure.isStance_missed (o : Figure K) : IsStance o.missed := by
  unfold Figure.missed
  split
  · exact .inr ⟨1, scale_one.symm⟩
  · exact o.isStance_own

theorem forward_ne_one : (forward : Matrix K) ≠ 1 := by
  intro h
  have hEntry := congrArg (fun m : Matrix K => m.r0.x) h
  simp [forward, one_eq_diagonal, diagonal] at hEntry

theorem scale_eq_one_iff {f : K} : scale f = 1 ↔ f = 1 := by
  constructor
  · intro h
    have hEntry := congrArg (fun m : Matrix K => m.r0.x) h
    simpa [scale_eq, one_eq_diagonal, diagonal] using hEntry
  · rintro rfl
    exact scale_one

/-- The kind of an object leaves its own axes as they are. -/
def Figure.IsPlain (o : Figure K) : Prop :=
  looks o.kind = false ∧ (o.kind = "LIGHT_PROBE" → ∀ f, o.factor = some f → f = 1)

theorem Figure.own_eq_one_iff (o : Figure K) : o.own = 1 ↔ o.IsPlain := by
  unfold Figure.own Figure.IsPlain
  by_cases hLooks : looks o.kind = true
  · simp [hLooks, forward_ne_one]
  · by_cases hKind : o.kind = "LIGHT_PROBE"
    · cases o.factor <;> simp_all [scale_eq_one_iff]
    · simp_all

theorem Figure.missed_eq_one_iff (o : Figure K) : o.missed = 1 ↔ o.kind = "CAMERA" ∨ o.kind = "LIGHT" ∨ o.IsPlain := by
  unfold Figure.missed
  split
  case isTrue hKind =>
    simp only [Bool.or_eq_true, beq_iff_eq] at hKind
    tauto
  case isFalse hKind =>
    simp only [Bool.or_eq_true, beq_iff_eq, not_or] at hKind
    rw [o.own_eq_one_iff]
    tauto

theorem trace_forward : trace (forward : Matrix K) = 1 := by
  simp [trace, forward]

variable [IsStrictOrderedRing K]

/-- The change of axes and units can be undone. -/
def axesUnit : (Matrix K)ˣ where
  val := engineAxes
  inv := editorAxes
  val_inv := by
    rw [engineAxes, editorAxes, diagonal_mul, one_eq_diagonal]
    norm_num [ratio_eq]
  inv_val := by
    rw [engineAxes, editorAxes, diagonal_mul, one_eq_diagonal]
    norm_num [ratio_eq]

def inEngine (m : (Matrix K)ˣ) : (Matrix K)ˣ := axesUnit * m * axesUnit⁻¹

theorem toEngine_eq (m : Matrix K) : toEngine m = .ok (engineAxes * m * editorAxes) := by
  unfold toEngine
  rw [show Matrix.inverse (engineAxes : Matrix K) = _ from inverse_unit axesUnit]
  rfl

theorem toEngineView_eq (looks : Bool) (m : (Matrix K)ˣ) :
    toEngineView looks (m : Matrix K) = .ok (inEngine m * ↑(if looks then forwardUnit else 1 : (Matrix K)ˣ)) := by
  unfold toEngineView
  rw [toEngine_eq]
  cases looks
  · exact congrArg Except.ok (mul_one _).symm
  · rfl

namespace Figure

/-- Where it stands in the axes of its parent, both as the engine has them. -/
def seen (o : Figure K) (parent : Option (Figure K)) : (Matrix K)ˣ :=
  inEngine ((parent.elim 1 (·.matrix))⁻¹ * o.matrix)

theorem written_eq (o : Figure K) : o.written = .ok (inEngine o.matrix * o.own) := by
  unfold written placed own
  rw [toEngineView_eq]
  cases hLooks : looks o.kind with
  | true =>
    have hKind : (o.kind == "LIGHT_PROBE") = false := by
      by_contra hKind
      rw [looks_eq_false_of_probe (Bool.eq_true_of_not_eq_false hKind)] at hLooks
      cases hLooks
    cases o.factor <;> simp [hKind] <;> rfl
  | false =>
    cases hKind : o.kind == "LIGHT_PROBE" <;> cases o.factor <;> simp

theorem tracked_eq (o : Figure K) (parent : Option (Figure K)) : o.tracked parent = .ok (o.seen parent * o.turn) := by
  have hRelative : relativeTo (parent.map fun p => (p.matrix : Matrix K)) o.matrix =
      .ok ↑((parent.elim 1 (·.matrix))⁻¹ * o.matrix) := by
    cases parent with
    | none => simp [relativeTo]
    | some p =>
      simp only [relativeTo, Option.map_some, Option.elim_some, inverse_unit, ok_bind]
      rfl
  unfold tracked placedUnder
  rw [hRelative, ok_bind, toEngineView_eq]
  rfl

end Figure

def writtenParent (parent : Option (Figure K)) : Except Fault (Matrix K) := parent.elim (.ok 1) Figure.written

/-- What the kind of the parent makes of its own axes. -/
def ownParent (parent : Option (Figure K)) : Matrix K := parent.elim 1 Figure.own

theorem writtenParent_eq (parent : Option (Figure K)) :
    writtenParent parent = .ok (inEngine (parent.elim 1 (·.matrix)) * ownParent parent) := by
  cases parent with
  | none => simp [writtenParent, ownParent, inEngine]
  | some p => exact p.written_eq

theorem inEngine_mul (a b : (Matrix K)ˣ) : inEngine (a * b) = inEngine a * inEngine b := by
  simp only [inEngine, mul_assoc, inv_mul_cancel_left]

theorem trace_scale (f : K) : trace (scale f) = 3 * f + 1 := by
  simp [trace, scale_eq, diagonal]
  ring

theorem not_conj_forward_scale (b : (Matrix K)ˣ) (f : K) : (forward : Matrix K) * b ≠ b * scale f := by
  intro h
  have hTrace := trace_conj b h
  rw [trace_forward, trace_scale] at hTrace
  obtain rfl : f = 0 := by linarith
  have hScale : (scale 0 * scale 0 : Matrix K) = scale 0 := by
    rw [scale_eq, diagonal_mul, mul_zero, mul_one]
  have hTwice : (forward : Matrix K) * forward * (b : Matrix K) = forward * (b : Matrix K) := by
    rw [mul_assoc, h, ← mul_assoc, h, mul_assoc, hScale]
  have hEntry := congrArg (fun m : Matrix K => m.r0.y) (b.mul_left_inj.mp hTwice)
  simp [forward, mul_eq, rowTimes, dot_eq, column1] at hEntry

theorem conj_iff {k x : Matrix K} (hk : IsStance k) (hx : IsStance x) (b : (Matrix K)ˣ) :
    k * b = b * x ↔ k = x ∧ Commute k b := by
  constructor
  · intro h
    suffices hSame : k = x by
      exact ⟨hSame, h.trans (by rw [hSame])⟩
    obtain rfl | ⟨f, rfl⟩ := hk <;> obtain rfl | ⟨g, rfl⟩ := hx
    · rfl
    · exact absurd h (not_conj_forward_scale b g)
    · have hBack : SemiconjBy (↑b⁻¹ : Matrix K) (scale f) forward := SemiconjBy.units_inv_symm_left h.symm
      exact absurd hBack.symm (not_conj_forward_scale b⁻¹ f)
    · have hTrace := trace_conj b h
      rw [trace_scale, trace_scale] at hTrace
      obtain rfl : f = g := by linarith
      rfl
  · rintro ⟨rfl, hCommute⟩
    exact hCommute

theorem product_eq_iff (parent : Option (Figure K)) (child : Figure K) :
    inEngine (parent.elim 1 (·.matrix)) * ownParent parent * (child.seen parent * child.turn) =
        inEngine child.matrix * child.own ↔
      ownParent parent = child.missed ∧ Commute (ownParent parent) (child.seen parent) := by
  have hStance : IsStance (ownParent parent) := by
    cases parent with
    | none => exact .inr ⟨1, scale_one.symm⟩
    | some p => exact p.isStance_own
  have hChild : inEngine child.matrix = inEngine (parent.elim 1 (·.matrix)) * child.seen parent := by
    rw [Figure.seen, ← inEngine_mul, mul_inv_cancel_left]
  rw [child.own_eq, hChild, Units.val_mul, ← mul_assoc, ← mul_assoc, Units.mul_left_inj, mul_assoc, mul_assoc,
    Units.mul_right_inj, conj_iff hStance child.isStance_missed]

/-- The matrix written for the parent times that of the track is the one written for the child. -/
def Composes (parent : Option (Figure K)) (child : Figure K) : Prop :=
  ∃ p t c, writtenParent parent = .ok p ∧ child.tracked parent = .ok t ∧ child.written = .ok c ∧ p * t = c

theorem composes_iff (parent : Option (Figure K)) (child : Figure K) :
    Composes parent child ↔ ownParent parent = child.missed ∧ Commute (ownParent parent) (child.seen parent) := by
  rw [← product_eq_iff]
  unfold Composes
  rw [writtenParent_eq, child.tracked_eq, child.written_eq]
  constructor
  · rintro ⟨p, t, c, hp, ht, hc, hProduct⟩
    rwa [Except.ok.inj hp, Except.ok.inj ht, Except.ok.inj hc]
  · intro hProduct
    exact ⟨_, _, _, rfl, rfl, rfl, hProduct⟩

/-- A shift along the first axis, with which only the identity of all stances commutes. -/
def shiftUnit : (Matrix K)ˣ where
  val := shift 1 0 0
  inv := shift (-1) 0 0
  val_inv := by
    simp [shift, mul_eq, rowTimes, dot_eq, column0, column1, column2, column3, one_eq_diagonal, diagonal]
  inv_val := by
    simp [shift, mul_eq, rowTimes, dot_eq, column0, column1, column2, column3, one_eq_diagonal, diagonal]

theorem eq_one_of_commute_shift {k : Matrix K} (hk : IsStance k) (h : Commute k (shiftUnit : (Matrix K)ˣ)) : k = 1 := by
  have hEntry : (k * shift 1 0 0).r0.w = (shift 1 0 0 * k).r0.w := congrArg (fun m : Matrix K => m.r0.w) h
  obtain rfl | ⟨f, rfl⟩ := hk
  · simp [forward, shift, mul_eq, rowTimes, dot_eq, column3] at hEntry
  · rw [scale_eq_one_iff]
    simpa [scale_eq, diagonal, shift, mul_eq, rowTimes, dot_eq, column3] using hEntry

theorem composes_always_iff (parent : Option (Figure K)) (child : Figure K) :
    (∀ m n, Composes (parent.map ({ · with matrix := m })) { child with matrix := n }) ↔
      (∀ p, parent = some p → p.IsPlain) ∧ (child.kind = "CAMERA" ∨ child.kind = "LIGHT" ∨ child.IsPlain) := by
  have hOwn : ∀ m, ownParent (parent.map ({ · with matrix := m })) = ownParent parent := by
    intro m
    cases parent <;> rfl
  have hPlain : (∀ p, parent = some p → p.IsPlain) ↔ ownParent parent = 1 := by
    cases parent with
    | none => simp [ownParent]
    | some p => simpa [ownParent] using p.own_eq_one_iff.symm
  simp only [composes_iff, hOwn, hPlain, ← child.missed_eq_one_iff]
  constructor
  · intro h
    have hOne : ownParent parent = 1 := by
      cases parent with
      | none => rfl
      | some p =>
        obtain ⟨-, hCommute⟩ := h 1 (axesUnit⁻¹ * shiftUnit * axesUnit)
        have hSeen : Figure.seen { child with matrix := axesUnit⁻¹ * shiftUnit * axesUnit }
            (some { p with matrix := 1 }) = shiftUnit := by
          simp [Figure.seen, inEngine, mul_assoc]
        exact eq_one_of_commute_shift p.isStance_own (hSeen ▸ hCommute)
    exact ⟨hOne, (h 1 1).1.symm.trans hOne⟩
  · rintro ⟨hParent, hChild⟩ m n
    rw [hParent]
    exact ⟨hChild.symm, Commute.one_left _⟩

/-- In exact arithmetic and with invertible matrices, the matrix written for the parent times that
of the track is the one written for the child if and only if what the parent's kind makes of its
axes is what the track leaves out of the child, and where the child stands commutes with it. For all
matrices it is so only under a plain parent and for a child that is plain or looks. The running
functions are these on doubles. -/
theorem tracks_compose_iff (parent : Option (Figure K)) (child : Figure K) :
    (∃ p t c, writtenParent parent = .ok p ∧ child.tracked parent = .ok t ∧ child.written = .ok c ∧
      (p * t = c ↔ ownParent parent = child.missed ∧ Commute (ownParent parent) (child.seen parent))) ∧
    ((∀ m n, Composes (parent.map ({ · with matrix := m })) { child with matrix := n }) ↔
      (∀ p, parent = some p → p.IsPlain) ∧ (child.kind = "CAMERA" ∨ child.kind = "LIGHT" ∨ child.IsPlain)) ∧
    (∀ s o f m, factorOf s o = .ok f → s.writtenMatrix o m = placed o.kind f m) ∧
    (∀ s i o m, instanceMatrix s i = .ok m → s.demand i.object "type" = .ok o →
      s.localMatrix i = placedUnder o.kind ((i.parent.or o.parent).map fun p => (s.object p).matrix) m) :=
  ⟨⟨_, _, _, writtenParent_eq parent, child.tracked_eq parent, child.written_eq, product_eq_iff parent child⟩,
    composes_always_iff parent child, fun _ _ _ _ => writtenMatrix_eq_placed,
    fun _ _ _ _ => localMatrix_eq_placedUnder⟩

/-- A mesh under a camera, both in the origin, and a light under an empty object. -/
theorem tracks_compose_iff_camera : (∃ p t c, writtenParent (some (⟨"CAMERA", none, 1⟩ : Figure ℚ)) = .ok p ∧
      Figure.tracked ⟨"MESH", none, 1⟩ (some (⟨"CAMERA", none, 1⟩ : Figure ℚ)) = .ok t ∧
      Figure.written (⟨"MESH", none, 1⟩ : Figure ℚ) = .ok c ∧ p * t ≠ c) ∧
    ∀ m n, Composes (some (⟨"EMPTY", none, m⟩ : Figure ℚ)) ⟨"LIGHT", none, n⟩ := by
  constructor
  · obtain ⟨⟨p, t, c, hp, ht, hc, hIff⟩, -⟩ := tracks_compose_iff (some (⟨"CAMERA", none, 1⟩ : Figure ℚ)) ⟨"MESH", none, 1⟩
    have hCamera : ownParent (some (⟨"CAMERA", none, 1⟩ : Figure ℚ)) = forward := by
      have hLooks : looks "CAMERA" = true := by decide
      simp [ownParent, Figure.own, hLooks]
    have hMesh : Figure.missed (⟨"MESH", none, 1⟩ : Figure ℚ) = 1 := by
      rw [Figure.missed_eq_one_iff]
      exact .inr (.inr ⟨by decide, by simp⟩)
    rw [hCamera, hMesh] at hIff
    exact ⟨p, t, c, hp, ht, hc, fun hProduct => forward_ne_one (hIff.mp hProduct).1⟩
  · have hAlways := (tracks_compose_iff (some (⟨"EMPTY", none, 1⟩ : Figure ℚ)) ⟨"LIGHT", none, 1⟩).2.1
    refine hAlways.mpr ⟨?_, .inr (.inl rfl)⟩
    rintro p ⟨⟩
    exact ⟨by decide, by simp⟩

end Exact

end SceneExchange.Geometry
