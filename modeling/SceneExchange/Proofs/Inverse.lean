import Mathlib.Algebra.Order.Ring.Abs
import Mathlib.Algebra.Field.Basic
import Mathlib.Data.List.Induction
import Mathlib.Tactic.FieldSimp
import Mathlib.Tactic.IntervalCases
import Mathlib.Tactic.LinearCombination
import Mathlib.Tactic.Ring
import SceneExchange.Geometry.Engine

/-!
# Matrices in exact arithmetic

Over an ordered field the matrices are a monoid, and elimination finds the inverse of every unit
of it. Each right row times the matrix is the left row beside it, at every step; a vector that the
left rows annihilate is annihilated by the matrix. The first fact makes the result an inverse, the
second one rules out that a column without a pivot is met.
-/

namespace SceneExchange.Geometry

open Scalar List Option

variable {K : Type} [Field K] [LinearOrder K]

instance exactScalar : Scalar K where
  ratio n d := n / d
  outweighs a b := decide (|b| < |a|)
  isZero a := decide (a = 0)

@[simp] theorem zero_eq : (zero : K) = 0 := by
  change ((0 : Int) : K) / ((1 : Nat) : K) = 0
  simp

@[simp] theorem one_eq : (one : K) = 1 := by
  change ((1 : Int) : K) / ((1 : Nat) : K) = 1
  simp

theorem ratio_eq (n : Int) (d : Nat) : (ratio n d : K) = n / d := rfl

theorem outweighs_iff {a b : K} : outweighs a b = true ↔ |b| < |a| := decide_eq_true_iff

theorem isZero_iff {a : K} : isZero a = true ↔ a = 0 := decide_eq_true_iff

namespace Matrix

theorem dot_eq (a b : Row K) : dot a b = a.x * b.x + a.y * b.y + a.z * b.z + a.w * b.w := rfl

def timesColumn (m : Matrix K) (v : Row K) : Row K := ⟨dot m.r0 v, dot m.r1 v, dot m.r2 v, dot m.r3 v⟩

theorem dot_rowTimes (a : Row K) (m : Matrix K) (v : Row K) : dot (rowTimes a m) v = dot a (m.timesColumn v) := by
  simp only [rowTimes, timesColumn, dot_eq, column0, column1, column2, column3]
  ring

theorem timesColumn_mul (m n : Matrix K) (v : Row K) : (m * n).timesColumn v = m.timesColumn (n.timesColumn v) := by
  change Row.mk (dot (rowTimes m.r0 n) v) (dot (rowTimes m.r1 n) v) (dot (rowTimes m.r2 n) v)
    (dot (rowTimes m.r3 n) v) = _
  rw [dot_rowTimes, dot_rowTimes, dot_rowTimes, dot_rowTimes]
  rfl

theorem timesColumn_identity (v : Row K) : identity.timesColumn v = v := by
  simp [timesColumn, identity, diagonal, dot_eq]

theorem timesColumn_zero (m : Matrix K) : m.timesColumn ⟨0, 0, 0, 0⟩ = ⟨0, 0, 0, 0⟩ := by
  simp [timesColumn, dot_eq]

theorem rowTimes_rowTimes (a : Row K) (m n : Matrix K) : rowTimes (rowTimes a m) n = rowTimes a (m * n) := by
  change Row.mk (dot (rowTimes a m) _) (dot (rowTimes a m) _) (dot (rowTimes a m) _) (dot (rowTimes a m) _) = _
  rw [dot_rowTimes, dot_rowTimes, dot_rowTimes, dot_rowTimes]
  rfl

theorem rowTimes_identity (a : Row K) : rowTimes a identity = a := by
  simp [rowTimes, identity, diagonal, dot_eq, column0, column1, column2, column3]

theorem identity_rowTimes (m : Matrix K) : identity * m = m := by
  change Matrix.mk (rowTimes identity.r0 m) (rowTimes identity.r1 m) (rowTimes identity.r2 m)
    (rowTimes identity.r3 m) = m
  simp [rowTimes, identity, diagonal, dot_eq, column0, column1, column2, column3]

instance : Monoid (Matrix K) where
  one := identity
  mul_assoc a b c := by
    change Matrix.mk (rowTimes (rowTimes a.r0 b) c) (rowTimes (rowTimes a.r1 b) c) (rowTimes (rowTimes a.r2 b) c)
      (rowTimes (rowTimes a.r3 b) c) = _
    rw [rowTimes_rowTimes, rowTimes_rowTimes, rowTimes_rowTimes, rowTimes_rowTimes]
    rfl
  one_mul := identity_rowTimes
  mul_one m := by
    change Matrix.mk (rowTimes m.r0 identity) (rowTimes m.r1 identity) (rowTimes m.r2 identity)
      (rowTimes m.r3 identity) = m
    rw [rowTimes_identity, rowTimes_identity, rowTimes_identity, rowTimes_identity]

theorem one_def : (1 : Matrix K) = identity := rfl

section Pivot

variable {entry : Row K → K} {start : Nat} {pairs : List (Pair K)}

def pivotStep (entry : Row K → K) (start : Nat) (best : Option (Nat × K)) (row : Pair K × Nat) : Option (Nat × K) :=
  if start < row.2 then
    match best with
    | some (j, v) => if outweighs (entry row.1.left) v then some (row.2, entry row.1.left) else some (j, v)
    | none => none
  else if row.2 = start then some (row.2, entry row.1.left) else best

theorem pivotIndex_eq : pivotIndex entry start pairs = (pairs.zipIdx.foldl (pivotStep entry start) none).elim start (·.1) :=
  rfl

def Heaviest (entry : Row K → K) (start : Nat) (pairs : List (Pair K)) (j : Nat) (v : K) : Prop :=
  start ≤ j ∧ (∃ p, pairs[j]? = some p ∧ entry p.left = v) ∧
    ∀ i p, start ≤ i → pairs[i]? = some p → |entry p.left| ≤ |v|

theorem foldl_pivotStep (entry : Row K → K) (start : Nat) (pairs : List (Pair K)) :
    (pairs.length ≤ start ∧ pairs.zipIdx.foldl (pivotStep entry start) none = none) ∨
      ∃ j v, pairs.zipIdx.foldl (pivotStep entry start) none = some (j, v) ∧ Heaviest entry start pairs j v := by
  induction pairs using List.reverseRecOn with
  | nil => exact .inl ⟨Nat.zero_le _, rfl⟩
  | append_singleton rows last ih =>
    rw [zipIdx_append, foldl_append, length_append]
    simp only [zipIdx_singleton, foldl_cons, foldl_nil, length_singleton, Nat.zero_add]
    have hRow : ∀ i p, (rows ++ [last])[i]? = some p → rows[i]? = some p ∨ i = rows.length ∧ p = last := by
      intro i p hAt
      obtain hi | rfl | hi := lt_trichotomy i rows.length
      · rw [getElem?_append_left hi] at hAt
        exact .inl hAt
      · rw [getElem?_concat_length] at hAt
        exact .inr ⟨rfl, (Option.some.inj hAt).symm⟩
      · rw [List.getElem?_eq_none (by rw [length_append]; exact hi)] at hAt
        cases hAt
    have hLast : (rows ++ [last])[rows.length]? = some last := getElem?_concat_length
    obtain ⟨hShort, hNone⟩ | ⟨j, v, hSome, hStart, ⟨p, hAt, hEntry⟩, hBest⟩ := ih
    · rw [hNone, pivotStep, if_neg (by omega)]
      by_cases hHere : rows.length = start
      · rw [if_pos hHere]
        refine .inr ⟨_, _, rfl, hHere.ge, ⟨last, hLast, rfl⟩, ?_⟩
        intro i q hi hq
        obtain hOld | ⟨-, rfl⟩ := hRow i q hq
        · have hi' : i < rows.length := (List.getElem?_eq_some_iff.mp hOld).1
          omega
        · exact le_rfl
      · rw [if_neg hHere]
        exact .inl ⟨by omega, rfl⟩
    · have hBelow : j < rows.length := (List.getElem?_eq_some_iff.mp hAt).1
      rw [hSome, pivotStep, if_pos (by omega)]
      dsimp only
      by_cases hMore : |v| < |entry last.left|
      · rw [if_pos (outweighs_iff.mpr hMore)]
        refine .inr ⟨_, _, rfl, by omega, ⟨last, hLast, rfl⟩, ?_⟩
        intro i q hi hq
        obtain hOld | ⟨-, rfl⟩ := hRow i q hq
        · exact (hBest i q hi hOld).trans hMore.le
        · exact le_rfl
      · rw [if_neg (outweighs_iff.not.mpr hMore)]
        refine .inr ⟨_, _, rfl, hStart, ⟨p, (getElem?_append_left hBelow).trans hAt, hEntry⟩, ?_⟩
        intro i q hi hq
        obtain hOld | ⟨-, rfl⟩ := hRow i q hq
        · exact hBest i q hi hOld
        · exact not_lt.mp hMore

theorem heaviest_pivotIndex (entry : Row K → K) (h : start < pairs.length) :
    ∃ p, pairs[pivotIndex entry start pairs]? = some p ∧
      Heaviest entry start pairs (pivotIndex entry start pairs) (entry p.left) := by
  obtain ⟨hShort, -⟩ | ⟨j, v, hSome, hHeaviest⟩ := foldl_pivotStep entry start pairs
  · omega
  · obtain ⟨p, hAt, rfl⟩ := hHeaviest.2.1
    rw [pivotIndex_eq, hSome]
    exact ⟨p, hAt, hHeaviest⟩

end Pivot

section Elimination

variable {entry : Row K → K} {c : Nat} {pairs pairs' : List (Pair K)}

def Pair.pivot (entry : Row K → K) (p : Pair K) : Pair K := p.map (· / entry p.left)

theorem getElem?_swapAt {β : Type} {i j : Nat} {l : List β} {a b : β} (hi : l[i]? = some a) (hj : l[j]? = some b)
    (k : Nat) : (swapAt i j l)[k]? = if k = j then some a else if k = i then some b else l[k]? := by
  have hi' := (List.getElem?_eq_some_iff.mp hi).1
  have hj' := (List.getElem?_eq_some_iff.mp hj).1
  simp only [swapAt, hi, hj, getElem?_set, length_set]
  grind

theorem length_swapAt {β : Type} (i j : Nat) (l : List β) : (swapAt i j l).length = l.length := by
  unfold swapAt
  split
  · rw [length_set, length_set]
  · rfl

/-- What a column does to the rows: the row `p` is exchanged with the one at the column's place and
divided by its entry, and so much of it is subtracted from each other row that the entry vanishes. -/
structure Eliminated (entry : Row K → K) (c : Nat) (pairs pairs' : List (Pair K)) (k : Nat) (p : Pair K) : Prop where
  le : c ≤ k
  chosen : pairs[k]? = some p
  ne_zero : entry p.left ≠ 0
  length_eq : pairs'.length = pairs.length
  pivot : pairs'[c]? = some (p.pivot entry)
  others : ∀ i, i ≠ c → pairs'[i]? =
    (pairs[if i = k then c else i]?).map fun q => q.eliminate (p.pivot entry) (entry q.left)

theorem eliminateColumn_cases [IsStrictOrderedRing K] (entry : Row K → K) (hc : c < pairs.length) :
    (∀ i p, c ≤ i → pairs[i]? = some p → entry p.left = 0) ∨
      ∃ pairs' k p, eliminateColumn entry c pairs = .ok pairs' ∧ Eliminated entry c pairs pairs' k p := by
  obtain ⟨p, hAt, hStart, -, hBest⟩ := heaviest_pivotIndex entry hc
  simp only [eliminateColumn, hAt]
  generalize pivotIndex entry c pairs = k at hAt hStart
  by_cases hZero : entry p.left = 0
  · refine .inl fun i q hi hq => ?_
    have hLe := hBest i q hi hq
    rw [hZero, abs_zero] at hLe
    exact abs_eq_zero.mp (hLe.antisymm (abs_nonneg _))
  · have hFirst : pairs[c]? = some pairs[c] := List.getElem?_eq_getElem hc
    refine .inr ⟨_, k, p, if_neg (isZero_iff.not.mpr hZero), hStart, hAt, hZero, ?_, ?_, ?_⟩
    · simp only [length_map, length_zipIdx, length_set, length_swapAt]
    · rw [getElem?_map, getElem?_zipIdx, getElem?_set_self (by rwa [length_swapAt])]
      simp only [map_some, Nat.zero_add, if_pos, Pair.pivot]
    · intro i hi
      rw [getElem?_map, getElem?_zipIdx, getElem?_set_ne hi.symm, getElem?_swapAt hFirst hAt, if_neg hi, Option.map_map]
      have hStep : ((fun q : Pair K × Nat => if q.2 = c then q.1 else q.1.eliminate (p.pivot entry) (entry q.1.left)) ∘
          fun q => (q, 0 + i)) = fun q => q.eliminate (p.pivot entry) (entry q.left) := by
        funext q
        exact if_neg (by rwa [Nat.zero_add])
      refine (congrArg (Option.map · _) hStep).trans ?_
      by_cases hk : i = k
      · rw [if_pos hk, if_pos hk, hFirst]
      · rw [if_neg hk, if_neg hk]

/-- A coordinate of rows, with which elimination works like with numbers. -/
structure IsCoordinate (entry : Row K → K) : Prop where
  eliminate : ∀ (p q : Pair K) (f : K), entry (p.eliminate q f).left = entry p.left - f * entry q.left
  divide : ∀ (p : Pair K) (d : K), entry (p.map (· / d)).left = entry p.left / d

def IsUnitColumn (entry : Row K → K) (c : Nat) (pairs : List (Pair K)) : Prop :=
  ∀ i p, pairs[i]? = some p → entry p.left = if i = c then 1 else 0

def Annihilates (pairs : List (Pair K)) (v : Row K) : Prop := ∀ p ∈ pairs, dot p.left v = 0

def Beside (m : Matrix K) (pairs : List (Pair K)) : Prop := ∀ p ∈ pairs, rowTimes p.right m = p.left

theorem rowTimes_divide (m : Matrix K) (r : Row K) (d : K) :
    rowTimes (r.map (· / d)) m = (rowTimes r m).map (· / d) := by
  simp only [rowTimes, Row.map, dot_eq, Row.mk.injEq]
  refine ⟨?_, ?_, ?_, ?_⟩ <;> ring

theorem beside_eliminate {m : Matrix K} {p q : Pair K} (f : K) (hp : rowTimes p.right m = p.left)
    (hq : rowTimes q.right m = q.left) : rowTimes (p.eliminate q f).right m = (p.eliminate q f).left := by
  simp only [Pair.eliminate, ← hp, ← hq, rowTimes, dot_eq, Row.mk.injEq]
  refine ⟨?_, ?_, ?_, ?_⟩ <;> ring

theorem dot_eliminate (p q : Pair K) (f : K) (v : Row K) :
    dot (p.eliminate q f).left v = dot p.left v - f * dot q.left v := by
  simp only [Pair.eliminate, dot_eq]
  ring

theorem dot_divide (r v : Row K) (d : K) : dot (r.map (· / d)) v = dot r v / d := by
  simp only [Row.map, dot_eq]
  ring

namespace Eliminated

variable {k : Nat} {p : Pair K} (h : Eliminated entry c pairs pairs' k p)

include h

theorem mem {q : Pair K} (hq : q ∈ pairs') :
    q = p.pivot entry ∨ ∃ r ∈ pairs, q = r.eliminate (p.pivot entry) (entry r.left) := by
  obtain ⟨i, hi⟩ := mem_iff_getElem?.mp hq
  by_cases hc : i = c
  · rw [hc, h.pivot] at hi
    exact .inl (Option.some.inj hi).symm
  · rw [h.others i hc] at hi
    obtain ⟨r, hr, rfl⟩ := map_eq_some_iff.mp hi
    exact .inr ⟨r, mem_of_getElem? hr, rfl⟩

theorem eliminate_mem {q : Pair K} (hq : q ∈ pairs) : q = p ∨ q.eliminate (p.pivot entry) (entry q.left) ∈ pairs' := by
  obtain ⟨i, hi⟩ := mem_iff_getElem?.mp hq
  by_cases hk : i = k
  · rw [hk, h.chosen] at hi
    exact .inl (Option.some.inj hi).symm
  · right
    by_cases hc : i = c
    · have hAt := h.others k fun hkc => hk (hc.trans hkc.symm)
      rw [if_pos rfl, ← hc, hi] at hAt
      exact mem_of_getElem? hAt
    · have hAt := h.others i hc
      rw [if_neg hk, hi] at hAt
      exact mem_of_getElem? hAt

theorem beside {m : Matrix K} (hm : Beside m pairs) : Beside m pairs' := by
  have hPivot : rowTimes (p.pivot entry).right m = (p.pivot entry).left := by
    have hChosen := hm p (mem_of_getElem? h.chosen)
    exact (rowTimes_divide m p.right _).trans (congrArg (Row.map _) hChosen)
  intro q hq
  obtain rfl | ⟨r, hr, rfl⟩ := h.mem hq
  · exact hPivot
  · exact beside_eliminate _ (hm r hr) hPivot

theorem annihilates {v : Row K} (hv : Annihilates pairs' v) : Annihilates pairs v := by
  have hPivot : dot (p.pivot entry).left v = 0 := hv _ (mem_of_getElem? h.pivot)
  intro q hq
  obtain rfl | hMem := h.eliminate_mem hq
  · have hDivided := dot_divide q.left v (entry q.left)
    rw [show q.left.map (· / entry q.left) = (q.pivot entry).left from rfl, hPivot] at hDivided
    exact (div_eq_zero_iff.mp hDivided.symm).resolve_right h.ne_zero
  · have hRow := hv _ hMem
    rwa [dot_eliminate, hPivot, mul_zero, sub_zero] at hRow

theorem isUnitColumn (hEntry : IsCoordinate entry) : IsUnitColumn entry c pairs' := by
  have hPivot : entry (p.pivot entry).left = 1 := (hEntry.divide p _).trans (div_self h.ne_zero)
  intro i q hq
  by_cases hi : i = c
  · rw [hi, h.pivot] at hq
    rw [if_pos hi, ← Option.some.inj hq, hPivot]
  · rw [h.others i hi] at hq
    obtain ⟨r, -, rfl⟩ := map_eq_some_iff.mp hq
    rw [if_neg hi, hEntry.eliminate, hPivot, mul_one, sub_self]

theorem keeps {entry' : Row K → K} (hEntry' : IsCoordinate entry') {j : Nat} (hj : j < c)
    (hUnit : IsUnitColumn entry' j pairs) : IsUnitColumn entry' j pairs' := by
  have hLe := h.le
  have hPivot : entry' (p.pivot entry).left = 0 := by
    refine (hEntry'.divide p _).trans ?_
    rw [hUnit k p h.chosen, if_neg (by omega), zero_div]
  intro i q hq
  by_cases hi : i = c
  · rw [hi, h.pivot] at hq
    rw [if_neg (by omega), ← Option.some.inj hq, hPivot]
  · rw [h.others i hi] at hq
    obtain ⟨r, hr, rfl⟩ := map_eq_some_iff.mp hq
    rw [hEntry'.eliminate, hPivot, mul_zero, sub_zero, hUnit _ r hr]
    split <;> grind

end Eliminated

def coordinate : Nat → Row K → K
  | 0 => Row.x
  | 1 => Row.y
  | 2 => Row.z
  | _ => Row.w

theorem isCoordinate_coordinate (c : Nat) : IsCoordinate (coordinate c : Row K → K) := by
  match c with
  | 0 | 1 | 2 | _ + 3 => exact ⟨fun _ _ _ => rfl, fun _ _ => rfl⟩

omit [LinearOrder K] in
theorem coordinate_zero (c : Nat) : coordinate c (⟨0, 0, 0, 0⟩ : Row K) = 0 := by
  match c with
  | 0 | 1 | 2 | _ + 3 => rfl

/-- The elimination on a matrix before its column `c`. -/
structure Progress (m : Matrix K) (c : Nat) (pairs : List (Pair K)) : Prop where
  length_eq : pairs.length = 4
  beside : Beside m pairs
  kernel : ∀ v, Annihilates pairs v → m.timesColumn v = ⟨0, 0, 0, 0⟩
  columns : ∀ j, j < c → IsUnitColumn (coordinate j) j pairs

theorem exists_annihilated {m : Matrix K} (h : Progress m c pairs) (hc : c < 4)
    (hZero : ∀ i p, c ≤ i → pairs[i]? = some p → coordinate c p.left = 0) :
    ∃ v, coordinate c v = 1 ∧ Annihilates pairs v := by
  obtain ⟨hLength, -, -, hColumns⟩ := h
  match pairs, hLength with
  | [p, q, r, s], _ =>
    have hUnit : ∀ j, j < c → coordinate j p.left = (if 0 = j then 1 else 0) ∧
        coordinate j q.left = (if 1 = j then 1 else 0) ∧ coordinate j r.left = (if 2 = j then 1 else 0) ∧
        coordinate j s.left = (if 3 = j then 1 else 0) := fun j hj =>
      ⟨hColumns j hj 0 p rfl, hColumns j hj 1 q rfl, hColumns j hj 2 r rfl, hColumns j hj 3 s rfl⟩
    simp only [Annihilates, forall_mem_cons, dot_eq]
    interval_cases c
    · have hNone : p.left.x = 0 ∧ q.left.x = 0 ∧ r.left.x = 0 ∧ s.left.x = 0 :=
        ⟨hZero 0 p le_rfl rfl, hZero 1 q (by decide) rfl, hZero 2 r (by decide) rfl, hZero 3 s (by decide) rfl⟩
      exact ⟨⟨1, 0, 0, 0⟩, rfl, by simp [hNone]⟩
    · have hNone : q.left.y = 0 ∧ r.left.y = 0 ∧ s.left.y = 0 :=
        ⟨hZero 1 q le_rfl rfl, hZero 2 r (by decide) rfl, hZero 3 s (by decide) rfl⟩
      have hx := hUnit 0 (by decide)
      simp only [coordinate] at hx
      exact ⟨⟨-p.left.y, 1, 0, 0⟩, rfl, by simp [hx, hNone]⟩
    · have hNone : r.left.z = 0 ∧ s.left.z = 0 := ⟨hZero 2 r le_rfl rfl, hZero 3 s (by decide) rfl⟩
      have hx := hUnit 0 (by decide)
      have hy := hUnit 1 (by decide)
      simp only [coordinate] at hx hy
      exact ⟨⟨-p.left.z, -q.left.z, 1, 0⟩, rfl, by simp [hx, hy, hNone]⟩
    · have hNone : s.left.w = 0 := hZero 3 s le_rfl rfl
      have hx := hUnit 0 (by decide)
      have hy := hUnit 1 (by decide)
      have hz := hUnit 2 (by decide)
      simp only [coordinate] at hx hy hz
      exact ⟨⟨-p.left.w, -q.left.w, -r.left.w, 1⟩, rfl, by simp [hx, hy, hz, hNone]⟩

theorem Progress.start (m : Matrix K) :
    Progress m 0 [⟨m.r0, identity.r0⟩, ⟨m.r1, identity.r1⟩, ⟨m.r2, identity.r2⟩, ⟨m.r3, identity.r3⟩] where
  length_eq := rfl
  beside := by
    have hRows := identity_rowTimes m
    simp only [Beside, forall_mem_cons]
    exact ⟨congrArg r0 hRows, congrArg r1 hRows, congrArg r2 hRows, congrArg r3 hRows, by simp⟩
  kernel v hv := by
    simp only [Annihilates, forall_mem_cons] at hv
    simp only [timesColumn, hv]
  columns j hj := absurd hj (Nat.not_lt_zero j)

theorem Progress.mul_eq_one {m : Matrix K} {p q r s : Pair K} (h : Progress m 4 [p, q, r, s]) :
    (⟨p.right, q.right, r.right, s.right⟩ : Matrix K) * m = 1 := by
  have hx := h.columns 0 (by decide)
  have hy := h.columns 1 (by decide)
  have hz := h.columns 2 (by decide)
  have hw := h.columns 3 (by decide)
  have hRow : ∀ i a, [p, q, r, s][i]? = some a → rowTimes a.right m =
      ⟨if i = 0 then 1 else 0, if i = 1 then 1 else 0, if i = 2 then 1 else 0, if i = 3 then 1 else 0⟩ := by
    intro i a ha
    rw [h.beside a (mem_of_getElem? ha)]
    exact Row.mk.injEq .. ▸ ⟨hx i a ha, hy i a ha, hz i a ha, hw i a ha⟩
  change Matrix.mk (rowTimes p.right m) (rowTimes q.right m) (rowTimes r.right m) (rowTimes s.right m) = identity
  rw [hRow 0 p rfl, hRow 1 q rfl, hRow 2 r rfl, hRow 3 s rfl]
  simp [identity, diagonal]

variable [IsStrictOrderedRing K]

theorem Progress.step {m : Matrix K} (hm : ∀ v, m.timesColumn v = ⟨0, 0, 0, 0⟩ → v = ⟨0, 0, 0, 0⟩) (hc : c < 4)
    (h : Progress m c pairs) :
    ∃ pairs', eliminateColumn (coordinate c) c pairs = .ok pairs' ∧ Progress m (c + 1) pairs' := by
  obtain hZero | ⟨pairs', k, p, hOk, hElim⟩ := eliminateColumn_cases (coordinate c) (h.length_eq ▸ hc)
  · obtain ⟨v, hOne, hv⟩ := exists_annihilated h hc hZero
    rw [hm v (h.kernel v hv), coordinate_zero] at hOne
    exact absurd hOne zero_ne_one
  · refine ⟨pairs', hOk, hElim.length_eq.trans h.length_eq, hElim.beside h.beside,
      fun v hv => h.kernel v (hElim.annihilates hv), ?_⟩
    intro j hj
    obtain hj | rfl := Nat.lt_succ_iff_lt_or_eq.mp hj
    · exact hElim.keeps (isCoordinate_coordinate j) hj (h.columns j hj)
    · exact hElim.isUnitColumn (isCoordinate_coordinate j)

theorem inverse_unit (u : (Matrix K)ˣ) : (u : Matrix K).inverse = .ok ↑u⁻¹ := by
  have hKernel : ∀ v, (u : Matrix K).timesColumn v = ⟨0, 0, 0, 0⟩ → v = ⟨0, 0, 0, 0⟩ := by
    intro v hv
    rw [← timesColumn_identity v, ← one_def, ← u.inv_mul, timesColumn_mul, hv, timesColumn_zero]
  obtain ⟨pairs₁, hOk₁, h₁⟩ := (Progress.start (u : Matrix K)).step hKernel (by decide)
  obtain ⟨pairs₂, hOk₂, h₂⟩ := h₁.step hKernel (by decide)
  obtain ⟨pairs₃, hOk₃, h₃⟩ := h₂.step hKernel (by decide)
  obtain ⟨pairs₄, hOk₄, h₄⟩ := h₃.step hKernel (by decide)
  match pairs₄, h₄.length_eq with
  | [p, q, r, s], _ =>
    have hInverse : (⟨p.right, q.right, r.right, s.right⟩ : Matrix K) = ↑u⁻¹ :=
      Units.eq_inv_of_mul_eq_one_right h₄.mul_eq_one
    rw [← hInverse]
    change (eliminateColumn (coordinate 0) 0 _ >>= _) = _
    rw [hOk₁]
    change (eliminateColumn (coordinate 1) 1 pairs₁ >>= _) = _
    rw [hOk₂]
    change (eliminateColumn (coordinate 2) 2 pairs₂ >>= _) = _
    rw [hOk₃]
    change (eliminateColumn (coordinate 3) 3 pairs₃ >>= _) = _
    rw [hOk₄]
    rfl

end Elimination

end Matrix

end SceneExchange.Geometry
