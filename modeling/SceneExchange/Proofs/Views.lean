import SceneExchange.Proofs.Tracks
import SceneExchange.Import.Objects

/-!
# Matrices of objects that are written and read

Writing changes the axes and then turns what looks forward. Reading changes the axes back before it
takes the turn back, and the two do not commute: in exact arithmetic cameras and lights return with
half a turn about their third axis, and everything else returns as it was.
-/

namespace SceneExchange.Geometry

variable {K : Type} [Field K] [LinearOrder K]

open Geometry.Matrix Scene

def halfTurn : Matrix K := diagonal (-1) (-1) 1 1

theorem mul_halfTurn (m : Matrix K) : m * halfTurn =
    ⟨⟨-m.r0.x, -m.r0.y, m.r0.z, m.r0.w⟩, ⟨-m.r1.x, -m.r1.y, m.r1.z, m.r1.w⟩,
      ⟨-m.r2.x, -m.r2.y, m.r2.z, m.r2.w⟩, ⟨-m.r3.x, -m.r3.y, m.r3.z, m.r3.w⟩⟩ := by
  simp [halfTurn, diagonal, mul_eq, rowTimes, dot_eq, column0, column1, column2, column3]

variable [IsStrictOrderedRing K]

theorem mul_halfTurn_eq_iff (m : Matrix K) :
    m * halfTurn = m ↔ m.column0 = ⟨0, 0, 0, 0⟩ ∧ m.column1 = ⟨0, 0, 0, 0⟩ := by
  obtain ⟨⟨a, b, c, d⟩, ⟨e, f, g, h⟩, ⟨i, j, k, l⟩, ⟨p, q, r, s⟩⟩ := m
  rw [mul_halfTurn]
  simp only [column0, column1, Matrix.mk.injEq, Row.mk.injEq, neg_eq_self, and_true]
  tauto

theorem axes_forward_axes : editorAxes * forward * engineAxes = (halfTurn * forward : Matrix K) := by
  simp [editorAxes, forward, engineAxes, halfTurn, diagonal, mul_eq, rowTimes, dot_eq, column0, column1, column2, column3,
    ratio_eq]

/-- What a matrix that is written returns as. -/
def returned (looks : Bool) (m : Matrix K) : Matrix K := if looks then m * halfTurn else m

theorem toEditorView_toEngineView (looks : Bool) (m : Matrix K) :
    (toEngineView looks m >>= toEditorView looks) = .ok (returned looks m) := by
  have hEditor : Matrix.inverse (editorAxes : Matrix K) = .ok engineAxes := inverse_unit axesUnit⁻¹
  have hForward : Matrix.inverse (forward : Matrix K) = .ok ↑(forwardUnit⁻¹ : (Matrix K)ˣ) := inverse_unit forwardUnit
  have hAxes : (editorAxes * engineAxes : Matrix K) = 1 := axesUnit.inv_mul
  unfold toEngineView toEditorView
  rw [toEngine_eq, ok_bind, hEditor, hForward]
  cases looks with
  | false =>
    refine congrArg Except.ok ?_
    calc editorAxes * (engineAxes * m * editorAxes) * engineAxes
        = (editorAxes * engineAxes) * m * (editorAxes * engineAxes) := by simp only [mul_assoc]
      _ = m := by rw [hAxes, one_mul, mul_one]
  | true =>
    refine congrArg Except.ok ?_
    calc editorAxes * (engineAxes * m * editorAxes * forward) * engineAxes * ↑(forwardUnit⁻¹ : (Matrix K)ˣ)
        = (editorAxes * engineAxes) * m * (editorAxes * forward * engineAxes) * ↑(forwardUnit⁻¹ : (Matrix K)ˣ) := by
          simp only [mul_assoc]
      _ = m * halfTurn * ↑(forwardUnit : (Matrix K)ˣ) * ↑(forwardUnit⁻¹ : (Matrix K)ˣ) := by
          rw [hAxes, one_mul, axes_forward_axes, ← mul_assoc]
          rfl
      _ = m * halfTurn := Units.mul_inv_cancel_right _ _

/-- The kinds of objects, with the tags of the actors that they become. -/
def actorTags : List (String × String) :=
  [("EMPTY", "Actor"), ("MESH", "ActorMesh"), ("CAMERA", "Camera"), ("LIGHT", "Light")]

theorem looks_eq_of_mem {kind tag : String} (h : (kind, tag) ∈ actorTags) : Import.looks tag = looks kind := by
  have hAll : ∀ x ∈ actorTags, Import.looks x.2 = looks x.1 := by decide
  exact hAll _ h

theorem writtenMatrix_eq_view {kind tag : String} (h : (kind, tag) ∈ actorTags) (s : Scene) {o : Scene.Object}
    (hKind : o.kind = kind) (m : Matrix Float) : s.writtenMatrix o m = toEngineView (looks kind) m := by
  have hAll : ∀ x ∈ actorTags, x.1 ≠ "LIGHT_PROBE" := by decide
  have hProbe : o.kind ≠ "LIGHT_PROBE" := hKind ▸ hAll _ h
  rw [writtenMatrix_eq_placed (if_neg (by simpa using hProbe)), placed, hKind]
  exact bind_pure _

/-- In exact arithmetic the matrix of an object that is written and read is returned with half a turn
if the object is a camera or a light, and as it was if not. So an object has its own matrix again if
and only if it is no camera and no light, or its matrix has nothing along its first two axes. -/
theorem view_returns_iff {kind tag : String} (h : (kind, tag) ∈ actorTags) (m : Matrix K) :
    (∃ e r, toEngineView (looks kind) m = .ok e ∧ toEditorView (Import.looks tag) e = .ok r ∧
      r = returned (looks kind) m ∧
      (r = m ↔ kind ∈ ["EMPTY", "MESH"] ∨ m.column0 = ⟨0, 0, 0, 0⟩ ∧ m.column1 = ⟨0, 0, 0, 0⟩)) ∧
    ∀ (s : Scene) (o : Scene.Object) n, o.kind = kind → s.writtenMatrix o n = toEngineView (looks kind) n := by
  refine ⟨?_, fun s o n hKind => writtenMatrix_eq_view h s hKind n⟩
  have hReturns := toEditorView_toEngineView (looks kind) m
  cases hView : toEngineView (looks kind) m with
  | error e =>
    rw [hView] at hReturns
    cases hReturns
  | ok e =>
    rw [hView, ok_bind] at hReturns
    refine ⟨e, _, rfl, looks_eq_of_mem h ▸ hReturns, rfl, ?_⟩
    have hAll : ∀ x ∈ actorTags, looks x.1 = false ↔ x.1 ∈ ["EMPTY", "MESH"] := by decide
    rw [← hAll _ h, returned]
    cases looks kind with
    | false => simp
    | true => simpa using mul_halfTurn_eq_iff m

/-- A camera in the origin returns with half a turn, and a mesh returns as it was. -/
theorem view_returns_iff_origin : (∃ e r, toEngineView (looks "CAMERA") (1 : Matrix ℚ) = .ok e ∧
      toEditorView (Import.looks "Camera") e = .ok r ∧ r ≠ 1) ∧
    ∀ m : Matrix ℚ, ∃ e, toEngineView (looks "MESH") m = .ok e ∧ toEditorView (Import.looks "ActorMesh") e = .ok m := by
  constructor
  · obtain ⟨⟨e, r, he, hr, -, hIff⟩, -⟩ := view_returns_iff (by decide : ("CAMERA", "Camera") ∈ actorTags) (1 : Matrix ℚ)
    refine ⟨e, r, he, hr, fun hSame => ?_⟩
    have hColumn := hIff.mp hSame
    simp [one_eq_diagonal, diagonal, column0] at hColumn
  · intro m
    obtain ⟨⟨e, r, he, hr, -, hIff⟩, -⟩ := view_returns_iff (by decide : ("MESH", "ActorMesh") ∈ actorTags) m
    exact ⟨e, he, hIff.mpr (.inl (by decide)) ▸ hr⟩

end SceneExchange.Geometry
