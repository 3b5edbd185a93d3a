import Mathlib.Algebra.Group.Nat.Defs
import SceneExchange.Number.Mixed
import SceneExchange.Proofs.Numerals

/-!
# Reading decimals back

A number with six places is written with digits, a point and a sign, or as one of three words. Such a
text is read as the double that is nearest to the decimal.
-/

open List

namespace SceneExchange.Number

def isNumeric (c : Char) : Bool := isDigit c || ['-', '.', 'a', 'f', 'i', 'n'].contains c

theorem isNumeric_of_isDigit {c : Char} (h : isDigit c) : isNumeric c := by simp [isNumeric, h]

/-- The text of a decimal with six places. -/
structure Sixths (text : String) (negative : Bool) (n : Nat) (whole fraction : List Char) : Prop where
  text_eq : text.toList = (if negative then ['-'] else []) ++ (whole ++ '.' :: fraction)
  whole_ne : whole ≠ []
  whole_digits : ∀ c ∈ whole, isDigit c
  fraction_digits : ∀ c ∈ fraction, isDigit c
  length_fraction : fraction.length = 6
  value : digitsValue (whole ++ fraction) = n

theorem sixths_placesText (negative : Bool) (n : Nat) :
    ∃ whole fraction, Sixths ((if negative then "-" else "") ++ placesText 6 n) negative n whole fraction := by
  let rest := (toString (n % 10 ^ 6)).toList
  have hLength : rest.length ≤ 6 := by
    rw [show rest = Nat.toDigits 10 (n % 10 ^ 6) by simp [rest]]
    exact (Nat.length_toDigits_le_iff (by decide) (by decide)).mpr (Nat.mod_lt _ (by decide))
  refine ⟨(toString (n / 10 ^ 6)).toList, replicate (6 - rest.length) '0' ++ rest, ?_, toList_toString_ne_nil _,
    fun c => isDigit_of_mem_toString, ?_, ?_, ?_⟩
  · cases negative <;> simp [placesText, rest, ← String.length_toList]
  · intro c hc
    obtain hc | hc := mem_append.mp hc
    · obtain rfl := (mem_replicate.mp hc).2
      decide
    · exact isDigit_of_mem_toString hc
  · rw [length_append, length_replicate]
    omega
  · have hWhole : Nat.ofDigitChars 10 (toString (n / 10 ^ 6)).toList 0 = n / 10 ^ 6 := digitsValue_toString _
    have hRest : Nat.ofDigitChars 10 rest 0 = n % 10 ^ 6 := digitsValue_toString _
    change Nat.ofDigitChars 10 _ 0 = n
    rw [Nat.ofDigitChars_append, Nat.ofDigitChars_append, hWhole, Nat.ofDigitChars_replicate_zero,
      Nat.ofDigitChars_eq_ofDigitChars_zero, hRest, ← Nat.mul_assoc, ← Nat.pow_add, Nat.add_sub_cancel' hLength]
    exact Nat.div_add_mod n (10 ^ 6)

/-- The double that is nearest to a number with six places. -/
def rounded (x : Float) : Float :=
  match decode x with
  | .nan => notANumber
  | .infinite negative => infinity negative
  | .finite _ _ _ => roundPlaces x 6

def sixDigits (mantissa : Nat) (exponent : Int) : Nat :=
  roundHalfEven ((scaled 2 mantissa 1 exponent).1 * Nat.pow 10 6) (scaled 2 mantissa 1 exponent).2

theorem six_cases (x : Float) : (∃ word ∈ ["nan", "inf", "-inf"], six x = word ∧ readReal? word = some (rounded x)) ∨
    ∃ negative mantissa exponent whole fraction, decode x = .finite negative mantissa exponent ∧
      Sixths (six x) negative (sixDigits mantissa exponent) whole fraction := by
  unfold six fixedText rounded
  cases decode x with
  | nan => exact .inl ⟨"nan", by decide, rfl, by rfl⟩
  | infinite negative =>
    left
    cases negative with
    | false => exact ⟨"inf", by decide, rfl, by rfl⟩
    | true => exact ⟨"-inf", by decide, rfl, by rfl⟩
  | finite negative mantissa exponent =>
    obtain ⟨whole, fraction, h⟩ := sixths_placesText negative (sixDigits mantissa exponent)
    exact .inr ⟨negative, mantissa, exponent, whole, fraction, rfl, h⟩

theorem isNumeric_of_mem_six {x : Float} {c : Char} (h : c ∈ (six x).toList) : isNumeric c := by
  obtain ⟨word, hMem, hWord, -⟩ | ⟨negative, _, _, whole, fraction, -, hSixths⟩ := six_cases x
  · have hWords : ∀ word ∈ ["nan", "inf", "-inf"], ∀ c ∈ word.toList, isNumeric c := by decide
    exact hWords word hMem c (hWord ▸ h)
  · rw [hSixths.text_eq] at h
    obtain h | h := mem_append.mp h
    · rw [eq_of_mem_sign h]
      decide
    · obtain h | h := mem_append.mp h
      · exact isNumeric_of_isDigit (hSixths.whole_digits c h)
      · obtain rfl | h := mem_cons.mp h
        · decide
        · exact isNumeric_of_isDigit (hSixths.fraction_digits c h)

theorem solid_of_isNumeric {c : Char} (h : isNumeric c) : isAscii c ∧ Text.isAsciiBlank c = false ∧ c ≠ '_' := by
  simp only [isNumeric, Bool.or_eq_true] at h
  obtain hDigit | hOther := h
  · obtain ⟨hAscii, hBlank⟩ := solid_of_isDigit hDigit
    refine ⟨hAscii, hBlank, ?_⟩
    rintro rfl
    revert hDigit
    decide
  · have hAll : ∀ c ∈ ['-', '.', 'a', 'f', 'i', 'n'], isAscii c ∧ Text.isAsciiBlank c = false ∧ c ≠ '_' := by decide
    exact hAll c (by simpa using hOther)

theorem takeWhile_isDigit {digits : List Char} (h : ∀ c ∈ digits, isDigit c) {rest : List Char}
    (hRest : ∀ c ∈ rest.head?, isDigit c = false) :
    (digits ++ rest).takeWhile isDigit = digits ∧ (digits ++ rest).dropWhile isDigit = rest := by
  have hStop : rest.takeWhile isDigit = [] ∧ rest.dropWhile isDigit = rest := by
    cases rest with
    | nil => simp
    | cons c rest =>
      have hc : isDigit c = false := hRest c rfl
      simp [hc]
  rw [takeWhile_append_of_pos h, dropWhile_append_of_pos h, hStop.1, hStop.2]
  simp

theorem readUnsigned?_sixths {text : String} {negative : Bool} {n : Nat} {whole fraction : List Char}
    (h : Sixths text negative n whole fraction) :
    readUnsigned? negative (whole ++ '.' :: fraction) = some (ofDecimal negative n (-6)) := by
  have hPoint : ∀ c ∈ ('.' :: fraction).head?, isDigit c = false := by
    rintro c ⟨⟩
    decide
  obtain ⟨hTake, hDrop⟩ := takeWhile_isDigit h.whole_digits hPoint
  have hEnd : ∀ c ∈ ([] : List Char).head?, isDigit c = false := by simp
  obtain ⟨hTake', hDrop'⟩ := takeWhile_isDigit h.fraction_digits hEnd
  rw [append_nil] at hTake' hDrop'
  simp [readUnsigned?, hTake, hDrop, hTake', hDrop', h.whole_ne, h.value, h.length_fraction]

theorem bounds_of_decode {x : Float} {negative : Bool} {mantissa : Nat} {exponent : Int}
    (h : decode x = .finite negative mantissa exponent) : mantissa < 2 ^ 53 ∧ exponent ≤ 971 := by
  have hFraction : x.toBits.toNat % twoPow 52 < 2 ^ 52 := Nat.mod_lt _ (Nat.two_pow_pos 52)
  have hBiased : x.toBits.toNat / twoPow 52 % twoPow 11 < 2 ^ 11 := Nat.mod_lt _ (Nat.two_pow_pos 11)
  have hUnit : twoPow 52 = 2 ^ 52 := rfl
  have hTop : twoPow 11 = 2 ^ 11 := rfl
  unfold decode decodeBits at h
  dsimp only at h
  split at h
  · split at h <;> cases h
  · split at h <;> cases h <;> omega

theorem scaled_le {mantissa m e : Nat} {exponent : Int} (hMantissa : mantissa ≤ m) (hExponent : exponent ≤ e) :
    (scaled 2 mantissa 1 exponent).1 ≤ m * 2 ^ e := by
  unfold scaled
  split
  · exact Nat.mul_le_mul hMantissa (Nat.pow_le_pow_right Nat.two_pos (by omega))
  · exact Nat.le_trans hMantissa (Nat.le_mul_of_pos_right m (Nat.two_pow_pos e))

theorem length_toString_le {n k : Nat} (hk : 0 < k) (h : n < 10 ^ k) : (toString n).length ≤ k := by
  rw [← String.length_toList, Nat.toString_eq_ofList_toDigits, String.toList_ofList]
  exact (Nat.length_toDigits_le_iff (by decide) hk).mpr h

/-- No double has so many digits that reading them would need to look at their count. -/
theorem length_sixDigits_le {mantissa : Nat} {exponent : Int} (hMantissa : mantissa < 2 ^ 53) (hExponent : exponent ≤ 971) :
    (toString (sixDigits mantissa exponent)).length ≤ 400 := by
  have hUnit : 0 < (scaled 2 mantissa 1 exponent).2 := by
    unfold scaled
    split
    · exact Nat.one_pos
    · exact Nat.mul_pos Nat.one_pos (Nat.two_pow_pos _)
  have hSix : sixDigits mantissa exponent < 10 ^ 400 := by
    refine Nat.lt_of_le_of_lt (roundHalfEven_le (Nat.lt_of_lt_of_le (Nat.lt_succ_self _)
      (Nat.le_mul_of_pos_right _ hUnit))) ?_
    exact Nat.lt_of_le_of_lt (Nat.succ_le_succ (Nat.mul_le_mul_right _ (scaled_le (Nat.le_of_lt hMantissa) hExponent)))
      (by decide +kernel)
  exact length_toString_le (by decide) hSix

theorem nearest_zero (negative : Bool) (d : Nat) : nearest negative 0 d = .ofBits (signBit negative).toUInt64 := by
  rw [nearest, nearestBits, if_pos rfl]

theorem ofDecimal_sixDigits {x : Float} {negative : Bool} {mantissa : Nat} {exponent : Int}
    (h : decode x = .finite negative mantissa exponent) :
    ofDecimal negative (sixDigits mantissa exponent) (-6) = rounded x := by
  obtain ⟨hMantissa, hExponent⟩ := bounds_of_decode h
  have hLength := length_sixDigits_le hMantissa hExponent
  have hRounded : rounded x = nearest negative (sixDigits mantissa exponent) (1 * Nat.pow 10 6) := by
    rw [rounded, h]
    change roundPlaces x 6 = _
    rw [roundPlaces, if_neg (by decide), if_neg (by decide), h]
    rfl
  rw [hRounded, ofDecimal]
  split
  · rename_i hZero
    rw [hZero, nearest_zero, nearest_zero]
  · dsimp only
    rw [if_neg (by omega), if_neg (by omega)]
    rfl

/-- What is written with six places is read as the double nearest to that. -/
theorem readReal?_six (x : Float) : readReal? (six x) = some (rounded x) := by
  obtain ⟨word, -, hWord, hRead⟩ | ⟨negative, mantissa, exponent, whole, fraction, hx, hSixths⟩ := six_cases x
  · rw [hWord, hRead]
  · have hSolid : ∀ c ∈ (six x).toList, isAscii c ∧ Text.isAsciiBlank c = false ∧ c ≠ '_' :=
      fun c hc => solid_of_isNumeric (isNumeric_of_mem_six hc)
    obtain ⟨c, whole, rfl⟩ := exists_cons_of_ne_nil hSixths.whole_ne
    have hTake : takeSign (six x).toList = (negative, c :: whole ++ '.' :: fraction) := by
      rw [hSixths.text_eq]
      exact takeSign_of_isDigit (hSixths.whole_digits c mem_cons_self) negative _
    -- The point keeps the text from being one of the words.
    have hPoint : '.' ∈ (c :: whole ++ '.' :: fraction).map lowerAscii :=
      mem_map.mpr ⟨'.', mem_append_right _ mem_cons_self, rfl⟩
    have hNotWord (word : String) (hWord : '.' ∉ word.toList) :
        (String.ofList ((c :: whole ++ '.' :: fraction).map lowerAscii) == word) = false := by
      refine beq_false_of_ne fun hSame => hWord ?_
      rwa [← hSame, String.toList_ofList]
    rw [readReal?, normalizeNumeral_of_ascii fun c hc => (hSolid c hc).1, trimWith_of_solid fun c hc => (hSolid c hc).2.1,
      dropUnderscores_of_notMem fun hMem => (hSolid _ hMem).2.2 rfl]
    dsimp only
    rw [hTake]
    dsimp only
    rw [hNotWord "inf" (by decide), hNotWord "infinity" (by decide), hNotWord "nan" (by decide)]
    exact (readUnsigned?_sixths hSixths).trans (congrArg some (ofDecimal_sixDigits hx))

theorem Mixed.exists_six {n : Mixed} {text : String} (h : n.six = .ok text) : ∃ x, text = Number.six x := by
  obtain ⟨x, -, ⟨⟩⟩ := bind_eq_ok.mp h
  exact ⟨x, rfl⟩

end SceneExchange.Number
