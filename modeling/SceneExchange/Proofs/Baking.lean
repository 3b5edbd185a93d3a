import SceneExchange.Proofs.Isolation

/-!
# The rows of the curve texture

The curves of a run are numbered in the order in which they are added, and each is sampled into the
row of its number. From the last row on the numbers go around once: a curve takes the row of the one
that came as many curves before it as there are rows, and what was sampled there is lost.
-/

namespace SceneExchange.Material

open SceneExchange.Graph Compile Likeness List

/-- An addition to the curve texture: the curve, unless the row is left blank, and the number that it is given. -/
structure Baked where
  curve : Option CurveRow
  number : Int

/-- The additions that lead from one session to another. Between them the curve texture is left alone. -/
inductive Bakes (f : Forest) (s : Session) : List Baked → Session → Prop
  | start : Bakes f s [] s
  | idle {added t u} (before : Bakes f s added t) (count : u.curveCount = t.curveCount)
      (rows : u.curveRows = t.curveRows) : Bakes f s added u
  | curve {added t r n u} (before : Bakes f s added t) (run : outcome (addCurve r) f t = (.ok n, u)) :
      Bakes f s (added ++ [⟨some r, n⟩]) u
  | blank {added t n u} (before : Bakes f s added t) (run : outcome addBlankCurve f t = (.ok n, u)) :
      Bakes f s (added ++ [⟨none, n⟩]) u

theorem lasting_bakes (f : Forest) (s : Session) (images : Array Texture.Image) :
    Stores.Lasting False images fun c => ∃ added t, Bakes f s added t ∧ t.stores = c where
  counted := by
    rintro _ hRow ⟨added, t, hBakes, rfl⟩
    obtain ⟨p, hRow⟩ := hRow.resolve_left id
    refine ⟨_, counted t, .blank hBakes (n := t.curveCount) ?_, rfl⟩
    rw [addBlankCurve, outcome_nextCurve, show curveRow t.curveCount = _ from hRow]
    rfl
  baked := by
    rintro _ p row hFills hRow ⟨added, t, hBakes, rfl⟩
    obtain ⟨misfit, hRun⟩ := outcome_addCurve row
    have hAdded := hRun t
    simp only [show curveRow t.curveCount = _ from hRow, if_pos hFills] at hAdded
    exact ⟨_, _, .curve hBakes hAdded, rfl⟩
  entered := by
    rintro _ name image hint - ⟨added, t, hBakes, rfl⟩
    exact ⟨added, t.entering name image hint, .idle hBakes rfl rfl, rfl⟩

theorem curveRow_eq_ok_iff {i p : Nat} :
    curveRow i = .ok p ↔ i < 2 * curvesSize ∧ p + i % curvesSize + 1 = curvesSize := by
  unfold curveRow
  dsimp only
  split
  · rw [Except.ok.injEq]
    unfold curvesSize at *
    omega
  · split
    · rw [Except.ok.injEq]
      unfold curvesSize at *
      omega
    · simp only [reduceCtorEq, false_iff]
      omega

def curveAt (added : List Baked) (i : Nat) : Option CurveRow := added[i]?.bind Baked.curve

section Numbers

variable {added : List Baked} {i : Nat}

theorem curveAt_concat (added : List Baked) (b : Baked) (i : Nat) :
    curveAt (added ++ [b]) i = if i = added.length then b.curve else curveAt added i := by
  unfold curveAt
  split
  · next hi => simp [hi]
  · next hi =>
    obtain hLt | hGt := Nat.lt_or_gt_of_ne hi
    · rw [getElem?_append_left hLt]
    · rw [List.getElem?_eq_none (by simp; omega), List.getElem?_eq_none (by omega)]

theorem lt_of_curveAt {r : CurveRow} (h : curveAt added i = some r) : i < added.length := by
  obtain ⟨b, hb, -⟩ := Option.bind_eq_some_iff.mp h
  exact (List.getElem?_eq_some_iff.mp hb).1

theorem curveAt_eq_none (h : added.length ≤ i) : curveAt added i = none := by
  rw [curveAt, List.getElem?_eq_none h]
  rfl

end Numbers

structure Holds (added : List Baked) (c : Stores) : Prop where
  count : c.curveCount = added.length
  numbers : added.map Baked.number = (List.range added.length).map Nat.cast
  fits : added.length ≤ 2 * curvesSize
  rows : ∀ {i r p}, curveAt added i = some r → curveRow i = .ok p →
    c.curveRows.get? p = some ((curveAt added (i + curvesSize)).getD r)

namespace Holds

variable {f : Forest} {s t : Session} {added : List Baked} {c : Stores}

theorem next (h : Holds added c) (row : Option CurveRow) {p : Nat} (hRow : curveRow c.curveCount = .ok p) :
    Holds (added ++ [⟨row, c.curveCount⟩]) (row.elim c.counted (c.baked p)) := by
  rw [h.count] at hRow
  obtain ⟨hLt, hPlace⟩ := curveRow_eq_ok_iff.mp hRow
  refine ⟨?_, ?_, ?_, fun {i r q} hCurve hq => ?_⟩
  · rw [length_append, length_singleton, ← h.count]
    cases row <;> rfl
  · rw [map_append, h.numbers, length_append, length_singleton, range_succ, map_append, h.count]
    rfl
  · rw [length_append, length_singleton]
    exact hLt
  obtain ⟨hi, hq⟩ := curveRow_eq_ok_iff.mp hq
  rw [curveAt_concat] at hCurve ⊢
  by_cases hLast : i = added.length
  · -- The curve that was just added is in its row, and nothing can have come round to it.
    subst hLast
    rw [if_pos rfl] at hCurve
    subst hCurve
    obtain rfl : q = p := by omega
    rw [if_neg (by simp [curvesSize]), curveAt_eq_none (Nat.le_add_right _ _)]
    exact Table.get?_insert_self ..
  · rw [if_neg hLast] at hCurve
    have hOld := h.rows hCurve (curveRow_eq_ok_iff.mpr ⟨hi, hq⟩)
    have hBefore := lt_of_curveAt hCurve
    by_cases hRound : i + curvesSize = added.length
    · rw [if_pos hRound]
      rw [curveAt_eq_none (Nat.le_of_eq hRound.symm)] at hOld
      obtain rfl : q = p := by
        rw [← hRound, Nat.add_mod_right] at hPlace
        omega
      cases row with
      | none => exact hOld
      | some r' => exact Table.get?_insert_self ..
    · rw [if_neg hRound]
      cases row with
      | none => exact hOld
      | some r' =>
        have hNe : q ≠ p := by
          unfold curvesSize at *
          omega
        exact (Table.get?_insert_of_ne _ hNe _).trans hOld

theorem of_bakes (h : Bakes f s added t) (hCount : s.curveCount = 0) : Holds added t.stores := by
  induction h with
  | start => exact ⟨hCount, rfl, Nat.zero_le _, by simp [curveAt]⟩
  | @idle _ t u _ count rows ih =>
    have hRows : u.stores.curveRows = t.stores.curveRows := rows
    exact ⟨count.trans ih.count, ih.numbers, ih.fits, hRows ▸ ih.rows⟩
  | @curve _ _ r _ _ _ run ih =>
    obtain ⟨misfit, hRun⟩ := outcome_addCurve r
    rw [hRun] at run
    split at run
    · cases run
    · split at run
      · cases run
        exact ih.next (some r) ‹_›
      · cases run
  | blank _ run ih =>
    rw [addBlankCurve, outcome_nextCurve] at run
    split at run
    · cases run
    · cases run
      exact ih.next none ‹_›

theorem sample_eq (h : Holds added c) {i : Nat} {r : CurveRow} (hCurve : curveAt added i = some r) (column : Nat) :
    curveSample c.curveRows i column = ((curveAt added (i + curvesSize)).getD r).sample column := by
  obtain ⟨p, hp⟩ := exists_curveRow (Nat.lt_of_lt_of_le (lt_of_curveAt hCurve) h.fits)
  rw [curveSample, hp]
  dsimp only
  rw [h.rows hCurve hp]

theorem kept_iff (h : Holds added c) :
    (∀ i r, curveAt added i = some r → ∀ column < curvesSize, curveSample c.curveRows i column = r.sample column) ↔
      ∀ i r r', curveAt added i = some r → curveAt added (i + curvesSize) = some r' →
        ∀ column < curvesSize, r'.sample column = r.sample column := by
  constructor
  · intro hKept i r r' hCurve hLater column hColumn
    have hSample := h.sample_eq hCurve column
    rw [hLater] at hSample
    exact hSample.symm.trans (hKept i r hCurve column hColumn)
  · intro hSame i r hCurve column hColumn
    rw [h.sample_eq hCurve]
    cases hLater : curveAt added (i + curvesSize) with
    | none => rfl
    | some r' => exact hSame i r r' hCurve hLater column hColumn

end Holds

theorem exists_bakes_of_documents {f : Forest} {s t : Session} {l : List (Option Definition × Bool)}
    {alwaysTwoSided : Bool} {ds : List Document} (hRun : outcome (documents l alwaysTwoSided) f s = (.ok ds, t)) :
    ∃ added, Bakes f s.rewound added t := by
  obtain ⟨u, hMaterials, -, hCount, hRows⟩ := materials_of_documents hRun
  obtain ⟨-, added, v, hBakes, hSame⟩ := (lasting_bakes f s.rewound _).of_materials ⟨[], _, .start, rfl⟩ hMaterials
  have hSame' : v.curveCount = u.curveCount ∧ v.curveRows = u.curveRows :=
    ⟨congrArg Stores.curveCount hSame, congrArg Stores.curveRows hSame⟩
  exact ⟨added, .idle hBakes (hCount.trans hSame'.1.symm) (hRows.trans hSame'.2.symm)⟩

/-- The curves of a run are numbered from zero on, and there are at most twice as many as rows. In the
end the row of a curve has its samples, unless another curve came round to it; so all curves are kept
if there are no more than rows. -/
theorem curve_rows_of_documents (l : List (Option Definition × Bool)) (alwaysTwoSided : Bool) (f : Forest)
    (s t : Session) (ds : List Document) (hRun : outcome (documents l alwaysTwoSided) f s = (.ok ds, t)) :
    (∃ added, Bakes f s.rewound added t) ∧ ∀ added, Bakes f s.rewound added t →
      added.map Baked.number = (List.range added.length).map Nat.cast ∧ added.length ≤ 2 * curvesSize ∧
      t.curveCount = added.length ∧
      (∀ i r, curveAt added i = some r → ∀ column,
        curveSample t.curveRows i column = ((curveAt added (i + curvesSize)).getD r).sample column) ∧
      ((∀ i r, curveAt added i = some r → ∀ column < curvesSize, curveSample t.curveRows i column = r.sample column) ↔
        ∀ i r r', curveAt added i = some r → curveAt added (i + curvesSize) = some r' →
          ∀ column < curvesSize, r'.sample column = r.sample column) := by
  refine ⟨exists_bakes_of_documents hRun, fun added hBakes => ?_⟩
  have hHolds := Holds.of_bakes hBakes rfl
  exact ⟨hHolds.numbers, hHolds.fits, hHolds.count, fun i r hCurve => hHolds.sample_eq hCurve, hHolds.kept_iff⟩

/-- Two materials with a ramp each, both of which are in the texture in the end. -/
theorem curve_rows_of_ramps : ∃ ds t added, outcome (documents rampMaterials false) rampForest {} = (.ok ds, t) ∧
    Bakes rampForest ({} : Session).rewound added t ∧ added.map Baked.number = [0, 1] ∧
    ∀ i r, curveAt added i = some r → ∀ column < curvesSize, curveSample t.curveRows i column = r.sample column := by
  let run := outcome (documents rampMaterials false) rampForest {}
  have hRuns : (run.1.isOk, run.2.curveCount) = (true, 2) := by decide +kernel
  obtain ⟨hOk, hTwo⟩ := Prod.mk.inj hRuns
  obtain ⟨ds, hRun⟩ := exists_ok_of_isOk hOk
  obtain ⟨⟨added, hBakes⟩, hAll⟩ := curve_rows_of_documents rampMaterials false rampForest {} run.2 ds hRun
  obtain ⟨hNumbers, -, hCount, -, hKept⟩ := hAll added hBakes
  obtain hLength : added.length = 2 := hCount.symm.trans hTwo
  refine ⟨ds, run.2, added, hRun, hBakes, ?_, hKept.mpr fun i r r' _ hLater => ?_⟩
  · rw [hNumbers, hLength]
    rfl
  · have hLt := lt_of_curveAt hLater
    rw [hLength, curvesSize] at hLt
    omega

end SceneExchange.Material
