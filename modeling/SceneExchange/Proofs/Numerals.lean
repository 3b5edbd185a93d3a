import SceneExchange.Datum
import SceneExchange.Number.Numeral

/-!
# Reading integers back

The text of an integer is read as that integer. A text that starts with a character of another kind
is read as none.
-/

namespace SceneExchange.Number

open Text List Nat

variable {cs : List Char} {c : Char}

theorem normalizeNumeral_of_ascii (h : ∀ c ∈ cs, isAscii c) : normalizeNumeral cs = cs := by
  rw [normalizeNumeral, map_congr_left fun c hc => if_pos (h c hc), map_id']

theorem trimWith_of_solid {blank : Char → Bool} (h : ∀ c ∈ cs, blank c = false) : trimWith blank cs = cs := by
  have hDrop {ds : List Char} (hds : ∀ c ∈ ds, blank c = false) : ds.dropWhile blank = ds := by
    cases ds with
    | nil => rfl
    | cons d ds => exact dropWhile_cons_of_neg (by simp [hds d mem_cons_self])
  rw [trimWith, hDrop h, hDrop (by simpa using h), reverse_reverse]

theorem dropUnderscores_of_notMem (h : '_' ∉ cs) (previous : Char) : dropUnderscores previous cs = some cs := by
  induction cs generalizing previous with
  | nil => rfl
  | cons c cs ih =>
    obtain ⟨hc, hcs⟩ := not_or.mp (mt mem_cons.mpr h)
    rw [dropUnderscores.eq_def]
    split <;> simp_all

theorem toNat_of_isDigit (h : isDigit c) : 48 ≤ c.toNat ∧ c.toNat ≤ 57 := by
  simpa [isDigit, Char.le_def, UInt32.le_iff_toNat_le] using h

theorem solid_of_isDigit (h : isDigit c) : isAscii c ∧ isAsciiBlank c = false := by
  have hBounds := toNat_of_isDigit h
  constructor
  · simp only [isAscii, decide_eq_true_eq]
    omega
  · have hSpace : c ≠ ' ' := by
      rintro rfl
      revert h
      decide
    simp [isAsciiBlank, hSpace]
    omega

theorem eq_of_mem_sign {negative : Bool} (h : c ∈ if negative then ['-'] else []) : c = '-' := by
  cases negative with
  | false => cases h
  | true => exact mem_singleton.mp h

theorem takeSign_of_isDigit (h : isDigit c) (negative : Bool) (rest : List Char) :
    takeSign ((if negative then ['-'] else []) ++ c :: rest) = (negative, c :: rest) := by
  cases negative with
  | true => rfl
  | false =>
    have hOther : c ≠ '-' ∧ c ≠ '+' := by
      constructor <;> rintro rfl <;> revert h <;> decide
    simp only [Bool.false_eq_true, if_false, nil_append]
    rw [takeSign.eq_def]
    split <;> simp_all

theorem readInteger?_of_digits {digits : List Char} (hSome : digits ≠ []) (h : ∀ c ∈ digits, isDigit c) (negative : Bool)
    {s : String} (hs : s.toList = (if negative then ['-'] else []) ++ digits) :
    readInteger? s = some (if negative then -(digitsValue digits : Int) else digitsValue digits) := by
  have hSign : ∀ c ∈ s.toList, isAscii c ∧ isAsciiBlank c = false := by
    intro c hc
    rw [hs] at hc
    obtain hc | hc := mem_append.mp hc
    · rw [eq_of_mem_sign hc]
      decide
    · exact solid_of_isDigit (h c hc)
  have hTake : takeSign s.toList = (negative, digits) := by
    obtain ⟨c, digits, rfl⟩ := exists_cons_of_ne_nil hSome
    rw [hs]
    exact takeSign_of_isDigit (h c mem_cons_self) negative digits
  have hUnderscore : '_' ∉ digits := by
    intro hMem
    have := h _ hMem
    revert this
    decide
  rw [readInteger?, normalizeNumeral_of_ascii fun c hc => (hSign c hc).1,
    trimWith_of_solid fun c hc => (hSign c hc).2, hTake]
  simp only [dropUnderscores_of_notMem hUnderscore]
  rw [if_neg]
  simpa [hSome] using h

theorem isDigit_of_mem_toString {n : Nat} (h : c ∈ (toString n).toList) : isDigit c := by
  rw [toString_eq_ofList_toDigits, String.toList_ofList] at h
  have hDigit := isDigit_of_mem_toDigits (by omega) (by omega) h
  simpa [isDigit, Char.isDigit, Char.le_def] using hDigit

theorem digitsValue_toString (n : Nat) : digitsValue (toString n).toList = n := by
  rw [toString_eq_ofList_toDigits, String.toList_ofList]
  exact ofDigitChars_toDigits (by omega) (by omega)

theorem toList_toString_ne_nil (n : Nat) : (toString n).toList ≠ [] := by
  rw [toString_eq_ofList_toDigits, String.toList_ofList]
  exact toDigits_ne_nil

theorem toList_toString_negSucc (n : Nat) : (toString (Int.negSucc n)).toList = '-' :: (toString (n + 1)).toList := by
  change ("-" ++ toString (n + 1)).toList = _
  simp

theorem isDigit_of_mem_toString_int {n : Int} (h : c ∈ (toString n).toList) : c = '-' ∨ isDigit c := by
  cases n with
  | ofNat n => exact .inr (isDigit_of_mem_toString h)
  | negSucc n =>
    rw [toList_toString_negSucc] at h
    exact (mem_cons.mp h).imp_right isDigit_of_mem_toString

theorem readInteger?_toString (n : Int) : readInteger? (toString n) = some n := by
  cases n with
  | ofNat n =>
    have hRead := readInteger?_of_digits (toList_toString_ne_nil n) (fun c => isDigit_of_mem_toString) false
      (s := toString n) (by simp)
    rw [digitsValue_toString] at hRead
    exact hRead
  | negSucc n =>
    have hRead := readInteger?_of_digits (toList_toString_ne_nil (n + 1)) (fun c => isDigit_of_mem_toString) true
      (toList_toString_negSucc n)
    rw [digitsValue_toString] at hRead
    rw [hRead, if_pos rfl]
    rfl

theorem readInteger?_eq_none {s : String} {rest : List Char} (hs : s.toList = c :: rest) (hAscii : isAscii c)
    (hBlank : isAsciiBlank c = false) (hDigit : isDigit c = false) (hOther : c ∉ ['-', '+', '_']) :
    readInteger? s = none := by
  obtain ⟨more, hNormal⟩ : ∃ more, normalizeNumeral (c :: rest) = c :: more := by
    rw [normalizeNumeral, map_cons, if_pos hAscii]
    exact ⟨_, rfl⟩
  have hTrim : ∃ body, trimWith isAsciiBlank (c :: more) = c :: body := by
    rw [trimWith, dropWhile_cons_of_neg (by simp [hBlank]), reverse_cons, dropWhile_append]
    split
    · exact ⟨[], by simp [hBlank]⟩
    · exact ⟨_, by rw [reverse_append]; rfl⟩
  obtain ⟨body, hTrim⟩ := hTrim
  simp only [mem_cons, not_mem_nil, or_false, not_or] at hOther
  have hTake : takeSign (c :: body) = (false, c :: body) := by
    rw [takeSign.eq_def]
    split <;> simp_all
  have hDrop : dropUnderscores ' ' (c :: body) = (dropUnderscores c body).map (c :: ·) := by
    rw [dropUnderscores.eq_def]
    split <;> simp_all
  rw [readInteger?, hs, hNormal, hTrim, hTake]
  simp only [hDrop]
  cases dropUnderscores c body with
  | none => rfl
  | some digits => simp [hDigit]

end SceneExchange.Number
