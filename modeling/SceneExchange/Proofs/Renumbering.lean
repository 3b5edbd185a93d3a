import SceneExchange.Proofs.Emission

/-!
# Expressions with other numbers of curves

Curves are numbered through all materials of a run, so the expressions of a material hold other
numbers when materials with curves stand before it. The number of a curve is a constant that feeds
the second input of the calls that look the curve up, and nothing else differs.
-/

namespace SceneExchange.Material

open Compile List Number Expression

namespace Expression

/-- A call that looks a value up in the curve texture. -/
def LooksUp (e : Expression) : Prop := ∃ path ∈ lookUps, ∃ ps, e = .call path ps

def Holds (e : Expression) (n : Int) : Prop :=
  ∃ text, sixPlaces (.int n) = .ok text ∧ e = ⟨"Scalar", [("constant", .text text)], []⟩

theorem not_looksUp_of_ordinary {f : Graph.Forest} {tag : String} {attributes : List (String × Datum)} {ps : List Part}
    (h : Ordinary f tag attributes) : ¬(⟨tag, attributes, ps⟩ : Expression).LooksUp := by
  rintro ⟨path, hPath, ps', hSame⟩
  exact h.notLookUp path hPath (congrArg Expression.attributes hSame)

theorem Holds.eq {e e' : Expression} {n : Int} (h : e.Holds n) (h' : e'.Holds n) : e = e' := by
  obtain ⟨text, hText, rfl⟩ := h
  obtain ⟨text', hText', rfl⟩ := h'
  rw [Except.ok.inj (hText.symm.trans hText')]

end Expression

/-- The expression at a position tells some look-up the number of its curve. -/
def Numbers (es : List Expression) (i : Nat) : Prop :=
  ∃ e ∈ es, e.LooksUp ∧ directInput "1" i 0 ∈ e.parts

/-- The first expressions are the second ones with `k` added to every number of a curve. -/
structure Raised (k : Nat) (es es' : List Expression) : Prop where
  length : es.length = es'.length
  numbers : ∀ i, Numbers es' i → ∃ (n : Nat) (e e' : Expression),
    es[i]? = some e ∧ es'[i]? = some e' ∧ e.Holds (n + k) ∧ e'.Holds n
  others : ∀ i, ¬Numbers es' i → es[i]? = es'[i]?

section Lists

variable {k i : Nat} {es es' xs : List Expression}

theorem numbers_append (h : ∀ e ∈ xs, ¬e.LooksUp) : Numbers (es ++ xs) i ↔ Numbers es i := by
  constructor
  · rintro ⟨e, he, hLooksUp, hPart⟩
    obtain he | he := mem_append.mp he
    · exact ⟨e, he, hLooksUp, hPart⟩
    · exact absurd hLooksUp (h e he)
  · rintro ⟨e, he, hCarries⟩
    exact ⟨e, mem_append_left xs he, hCarries⟩

namespace Raised

theorem nil : Raised k [] [] where
  length := rfl
  numbers := by
    rintro i ⟨e, he, -⟩
    cases he
  others _ _ := rfl

theorem lt_of_numbers (h : Raised k es es') (hi : Numbers es' i) : i < es.length ∧ i < es'.length := by
  obtain ⟨n, e, e', hGet, hGet', -⟩ := h.numbers i hi
  exact ⟨(List.getElem?_eq_some_iff.mp hGet).1, (List.getElem?_eq_some_iff.mp hGet').1⟩

theorem getElem?_append (h : Raised k es es') (hi : ¬Numbers es' i) : (es ++ xs)[i]? = (es' ++ xs)[i]? := by
  rw [List.getElem?_append, List.getElem?_append, h.length]
  split
  · exact h.others i hi
  · rfl

theorem append (h : Raised k es es') (hx : ∀ e ∈ xs, ¬e.LooksUp) : Raised k (es ++ xs) (es' ++ xs) where
  length := by rw [length_append, length_append, h.length]
  numbers i hi := by
    have hi := (numbers_append hx).mp hi
    obtain ⟨hLt, hLt'⟩ := h.lt_of_numbers hi
    rw [getElem?_append_left hLt, getElem?_append_left hLt']
    exact h.numbers i hi
  others i hi := h.getElem?_append (mt (numbers_append hx).mpr hi)

theorem eq (h : Raised 0 es es') : es = es' := by
  refine ext_getElem? fun i => ?_
  by_cases hi : Numbers es' i
  · obtain ⟨n, e, e', hGet, hGet', hHolds, hHolds'⟩ := h.numbers i hi
    rw [hGet, hGet', hHolds.eq hHolds']
  · exact h.others i hi

end Raised

end Lists

section LookUps

def lookUpCall (path : String) (first : Part) (start : Nat) : Expression :=
  .call path [first, directInput "1" start 0, directInput "2" (start + 1 : Nat) 0, directInput "3" (start + 2 : Nat) 0]

/-- The expressions of a look-up with the given number, from the position `start` on. -/
def lookUpTail (path : String) (first : Part) (start : Nat) (number size : String) : List Expression :=
  [⟨"Scalar", [("constant", .text number)], []⟩, ⟨"Scalar", [("constant", .text size)], []⟩,
    ⟨"TextureObject", [], [.element (.leaf "Input"
      [("name", .text "Texture"), ("type", .text "Texture"), ("val", .text curvesName)])]⟩,
    lookUpCall path first start]

variable {k : Nat} {es es' : List Expression} {path number number' size : String} {source : Source}

theorem numbers_lookUpTail {i start : Nat} (hPath : path ∈ lookUps) :
    Numbers (es ++ lookUpTail path (.input "0" source) start number size) i ↔ Numbers es i ∨ i = start := by
  have hScalar (text : String) : ¬(⟨"Scalar", [("constant", .text text)], []⟩ : Expression).LooksUp :=
    by simp [Expression.LooksUp, call]
  constructor
  · rintro ⟨e, he, hLooksUp, hPart⟩
    obtain he | he := mem_append.mp he
    · exact .inl ⟨e, he, hLooksUp, hPart⟩
    · simp only [lookUpTail, mem_cons, not_mem_nil, or_false] at he
      obtain rfl | rfl | rfl | rfl := he
      · exact absurd hLooksUp (hScalar number)
      · exact absurd hLooksUp (hScalar size)
      · simp [Expression.LooksUp, call] at hLooksUp
      · have hSame : (i : Int) = start := by
          simpa [lookUpCall, call, directInput] using hPart
        exact .inr (by omega)
  · rintro (⟨e, he, hCarries⟩ | rfl)
    · exact ⟨e, mem_append_left _ he, hCarries⟩
    · refine ⟨lookUpCall path (.input "0" source) i, mem_append_right es ?_, ⟨path, hPath, _, rfl⟩, ?_⟩
      · simp [lookUpTail]
      · simp [lookUpCall, call]

theorem Raised.lookUp (h : Raised k es es') (hPath : path ∈ lookUps) {n : Nat}
    (hNumber : sixPlaces (.int (n + k)) = .ok number) (hNumber' : sixPlaces (.int n) = .ok number') :
    Raised k (es ++ lookUpTail path (.input "0" source) es.length number size)
      (es' ++ lookUpTail path (.input "0" source) es.length number' size) where
  length := by
    rw [length_append, length_append, h.length]
    rfl
  numbers i hi := by
    obtain hi | rfl := (numbers_lookUpTail hPath).mp hi
    · obtain ⟨hLt, hLt'⟩ := h.lt_of_numbers hi
      rw [getElem?_append_left hLt, getElem?_append_left hLt']
      exact h.numbers i hi
    · refine ⟨n, _, _, ?_, ?_, ⟨number, hNumber, rfl⟩, number', hNumber', rfl⟩
      · simp [lookUpTail]
      · simp [lookUpTail, h.length]
  others i hi := by
    have hi := not_or.mp (mt (numbers_lookUpTail hPath).mpr hi)
    rw [List.getElem?_append, List.getElem?_append, h.length]
    split
    · exact h.others i hi.1
    · obtain ⟨j, hj⟩ : ∃ j, i - es'.length = j + 1 := ⟨i - es'.length - 1, by have := h.length; omega⟩
      rw [hj, lookUpTail, lookUpTail, getElem?_cons_succ, getElem?_cons_succ]

variable {f : Graph.Forest} {s : Session} {d : Datum} {n : Int}

theorem outcome_emitScalar (h : sixPlaces d = .ok number) : outcome (emitScalar d) f s = (.ok s.expressions.size,
      { s with expressions := s.expressions.push ⟨"Scalar", [("constant", .text number)], []⟩ }) := by
  have hText : outcome (lift (scalarText (.single d))) f s = (.ok number, s) := by
    rw [outcome_lift]
    exact congrArg (·, s) h
  rw [emitScalar, emitScalarValue, outcome_bind_ok hText, emitScalarText, outcome_emit]

theorem twoPow_le_sub {a m n : Nat} (ha : a < n) (hm : m < n) : twoPow a ≤ twoPow n - twoPow m := by
  obtain ⟨k, rfl⟩ := Nat.exists_eq_add_one_of_ne_zero (Nat.ne_zero_of_lt ha)
  have hUpper : twoPow (k + 1) = twoPow k + twoPow k := Nat.two_pow_succ k
  have hPow {i : Nat} (hi : i < k + 1) : twoPow i ≤ twoPow k :=
    Nat.pow_le_pow_right Nat.two_pos (Nat.le_of_lt_succ hi)
  rw [hUpper, Nat.add_sub_assoc (hPow hm)]
  exact Nat.le_trans (hPow ha) (Nat.le_add_right _ _)

theorem exists_sixPlaces {n : Nat} (h : n < 2 * curvesSize) : ∃ text, sixPlaces (.int n) = .ok text := by
  have hInside : (n : Int).natAbs < leastOutside := by
    have hRows : 2 * curvesSize = twoPow 11 := by decide
    rw [Int.natAbs_natCast, leastOutside]
    exact Nat.lt_of_lt_of_le (hRows ▸ h) (twoPow_le_sub (by decide) (by decide))
  have hNearest : ofInt? n = some (nearest ((n : Int) < 0) (n : Int).natAbs 1) :=
    if_pos hInside
  unfold sixPlaces
  dsimp only
  rw [hNearest]
  exact ⟨_, rfl⟩

theorem outcome_lookUpTail (hNumber : sixPlaces (.int n) = .ok number)
    (hSize : sixPlaces (.int curvesSize) = .ok size) (first : Part) :
    outcome (do emit (.call path (first :: (← Handlers.curveInputs n)))) f s =
      (.ok (s.expressions.size + 3 : Nat), { s with expressions :=
        s.expressions ++ (lookUpTail path first s.expressions.size number size).toArray }) := by
  unfold Handlers.curveInputs
  simp only [bind_assoc, pure_bind]
  rw [outcome_bind_ok (outcome_emitScalar hNumber), outcome_bind_ok (outcome_emitScalar hSize),
    Handlers.textureObject, outcome_bind_ok (outcome_emit _), outcome_emit]
  have hPush (es : Array Expression) (a b c d : Expression) :
      es ++ [a, b, c, d].toArray = (((es.push a).push b).push c).push d := by
    refine Array.toList_inj.mp ?_
    simp
  simp only [lookUpTail, lookUpCall, hPush, Array.size_push]

end LookUps

end SceneExchange.Material
