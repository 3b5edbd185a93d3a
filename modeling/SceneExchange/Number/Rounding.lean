/-!
# Rounding a quotient to the nearest integer

A quotient half way between two integers goes to the even one.
-/

namespace SceneExchange.Number

def twoPow (n : Nat) : Nat := Nat.pow 2 n

def roundHalfEven (n d : Nat) : Nat :=
  let q := n / d
  let r := n % d
  if 2 * r < d then q
  else if d < 2 * r then q + 1
  else if q % 2 = 0 then q
  else q + 1

theorem roundHalfEven_of_dvd {n d : Nat} (hd : 0 < d) (h : d ∣ n) :
    roundHalfEven n d = n / d := by
  simp [roundHalfEven, Nat.mod_eq_zero_of_dvd h, hd]

def keepDigits (digits n : Nat) : Nat :=
  let unit := twoPow (n.log2 + 1 - digits)
  roundHalfEven n unit * unit

theorem roundHalfEven_le {n d q : Nat} (h : n < q * d) : roundHalfEven n d ≤ q := by
  have hDiv : n / d < q := Nat.div_lt_of_lt_mul (by rwa [Nat.mul_comm])
  unfold roundHalfEven
  dsimp only
  split
  · omega
  · split
    · omega
    · split <;> omega

theorem keepDigits_of_dvd {digits n : Nat} (h : twoPow (n.log2 + 1 - digits) ∣ n) :
    keepDigits digits n = n := by
  have hUnit : 0 < twoPow (n.log2 + 1 - digits) := Nat.two_pow_pos _
  rw [keepDigits, roundHalfEven_of_dvd hUnit h, Nat.div_mul_cancel h]

theorem keepDigits_keepDigits {digits : Nat} (hDigits : 0 < digits) (n : Nat) :
    keepDigits digits (keepDigits digits n) = keepDigits digits n := by
  refine keepDigits_of_dvd ?_
  let e := n.log2 + 1 - digits
  let q := roundHalfEven n (2 ^ e)
  change 2 ^ ((q * 2 ^ e).log2 + 1 - digits) ∣ q * 2 ^ e
  have hq : q ≤ 2 ^ digits := by
    refine roundHalfEven_le (Nat.lt_of_lt_of_le Nat.lt_log2_self ?_)
    rw [← Nat.pow_add]
    exact Nat.pow_le_pow_right Nat.two_pos (by omega)
  obtain hFits | hFull := Nat.lt_or_eq_of_le hq
  · by_cases hZero : q * 2 ^ e = 0
    · rw [hZero]
      exact Nat.dvd_zero _
    · have hLog : (q * 2 ^ e).log2 < digits + e := by
        rw [Nat.log2_lt hZero, Nat.pow_add]
        exact Nat.mul_lt_mul_of_pos_right hFits (Nat.two_pow_pos e)
      exact Nat.dvd_trans (Nat.pow_dvd_pow 2 (by omega)) (Nat.dvd_mul_left _ q)
  · -- Rounding up reached the next power of two, whose unit is twice as great.
    rw [hFull, ← Nat.pow_add, Nat.log2_two_pow]
    exact Nat.pow_dvd_pow 2 (by omega)

def scaled (base : Nat) (num den : Nat) (exponent : Int) : Nat × Nat :=
  if 0 ≤ exponent then (num * Nat.pow base exponent.toNat, den)
  else (num, den * Nat.pow base (-exponent).toNat)

def wholePart (mantissa : Nat) (exponent : Int) : Nat :=
  if 0 ≤ exponent then mantissa * twoPow exponent.toNat else mantissa / twoPow (-exponent).toNat

end SceneExchange.Number
