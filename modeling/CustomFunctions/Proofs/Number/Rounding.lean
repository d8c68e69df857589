import CustomFunctions.Number.Binary64
import Mathlib.Algebra.Order.Field.Power
import Mathlib.Data.Nat.Log
import Mathlib.Data.Rat.Cast.Order
import Mathlib.Tactic.FieldSimp
import Mathlib.Tactic.Linarith
import Mathlib.Tactic.NormNum
import Mathlib.Tactic.Positivity
import Mathlib.Tactic.Ring

/-!
# Rounding to binary floating point

Quotients of naturals are rounded at the exponent where the mantissa has 53 bits. The result is off by
half a unit at most, it never passes a number of the format, and it is finite as long as the quotient
stays below the middle between the greatest finite number and the next power of two.

## Main definitions

- `Binary64.overflow` — the least number that is rounded to infinity
- `Binary64.mantissaExponent_spec` — where the mantissa has 53 bits
- `Binary64.ofRatio_isInfinite` — numbers below the limit stay finite
-/

namespace CustomFunctions.Binary64

/-- The least number that is rounded to infinity: half a unit above the greatest finite one. -/
def overflow : Nat := (2 ^ 54 - 1) * 2 ^ 970

theorem overflow_cast : (overflow : ℚ) = (2 ^ 54 - 1) * 2 ^ (970 : Int) := by
  rw [overflow, Nat.cast_mul, Nat.cast_pow, Nat.cast_ofNat, zpow_ofNat]
  norm_num only [Nat.cast_ofNat]

-- ════════════════════════════════════════════════════════════════════════
-- Rounding a quotient to a natural
-- ════════════════════════════════════════════════════════════════════════

theorem roundHalfEven_cases (num den : Nat) :
    (roundHalfEven num den = num / den ∧ 2 * (num % den) ≤ den) ∨
      (roundHalfEven num den = num / den + 1 ∧ den ≤ 2 * (num % den)) := by
  unfold roundHalfEven
  dsimp only
  split
  · left
    exact ⟨rfl, by omega⟩
  · split
    · right
      exact ⟨rfl, by omega⟩
    · have hparity : num / den % 2 = 0 ∨ num / den % 2 = 1 := by omega
      rcases hparity with h | h
      · left
        exact ⟨by omega, by omega⟩
      · right
        exact ⟨by omega, by omega⟩

/-- The rounded quotient is at most a half above the quotient. -/
theorem roundHalfEven_le_add_half (num den : Nat) :
    2 * (roundHalfEven num den * den) ≤ 2 * num + den := by
  have hdiv := Nat.div_add_mod num den
  rw [Nat.mul_comm] at hdiv
  rcases roundHalfEven_cases num den with ⟨h, hmod⟩ | ⟨h, hmod⟩
  · rw [h]
    omega
  · rw [h, Nat.add_mul]
    omega

/-- Rounding up does not pass a natural. -/
theorem roundHalfEven_le {num den q : Nat} (hden : 0 < den) (h : num ≤ q * den) :
    roundHalfEven num den ≤ q := by
  have hdiv := Nat.div_add_mod num den
  have hq : num / den ≤ q := Nat.div_le_of_le_mul (by rwa [Nat.mul_comm])
  rcases roundHalfEven_cases num den with ⟨heq, _⟩ | ⟨heq, hmod⟩
  · rwa [heq]
  · rw [heq]
    -- a remainder is left, so the quotient is below the bound
    have hlt : num / den * den < q * den := by
      rw [Nat.mul_comm]
      omega
    exact Nat.lt_of_mul_lt_mul_right hlt

/-- Rounding down does not pass a natural. -/
theorem le_roundHalfEven {num den q : Nat} (hden : 0 < den) (h : q * den ≤ num) :
    q ≤ roundHalfEven num den := by
  have hq : q ≤ num / den := (Nat.le_div_iff_mul_le hden).mpr h
  rcases roundHalfEven_cases num den with ⟨heq, _⟩ | ⟨heq, _⟩ <;> omega

-- ════════════════════════════════════════════════════════════════════════
-- Units
-- ════════════════════════════════════════════════════════════════════════

theorem inUnits_den_pos {den : Nat} (hden : 0 < den) (num : Nat) (e : Int) :
    0 < (inUnits num den e).2 :=
  Nat.mul_pos hden (Nat.pow_pos (by decide))

theorem inUnits_ratio (num : Nat) {den : Nat} (hden : 0 < den) (e : Int) :
    ((inUnits num den e).1 : ℚ) / (inUnits num den e).2 * 2 ^ e = num / den := by
  have hne : (den : ℚ) ≠ 0 := by positivity
  obtain ⟨n, rfl | rfl⟩ := e.eq_nat_or_neg
  · simp only [inUnits, Nat.pow_eq, Int.toNat_natCast, Int.toNat_neg_natCast, pow_zero, mul_one,
      Nat.cast_mul, Nat.cast_pow, Nat.cast_ofNat, zpow_natCast]
    field_simp
  · simp only [inUnits, Nat.pow_eq, neg_neg, Int.toNat_natCast, Int.toNat_neg_natCast, pow_zero,
      mul_one, Nat.cast_mul, Nat.cast_pow, Nat.cast_ofNat, zpow_neg, zpow_natCast]
    field_simp

/-- Comparing with a multiple of the unit. -/
theorem mul_le_inUnits_iff (num : Nat) {den : Nat} (hden : 0 < den) (e : Int) (q : Nat) :
    q * (inUnits num den e).2 ≤ (inUnits num den e).1 ↔ (q : ℚ) * 2 ^ e ≤ num / den := by
  have hpos : (0 : ℚ) < (inUnits num den e).2 := by exact_mod_cast inUnits_den_pos hden num e
  rw [← inUnits_ratio num hden e, mul_le_mul_iff_left₀ (by positivity), le_div_iff₀ hpos]
  exact_mod_cast Iff.rfl

theorem inUnits_le_mul_iff (num : Nat) {den : Nat} (hden : 0 < den) (e : Int) (q : Nat) :
    (inUnits num den e).1 ≤ q * (inUnits num den e).2 ↔ (num / den : ℚ) ≤ q * 2 ^ e := by
  have hpos : (0 : ℚ) < (inUnits num den e).2 := by exact_mod_cast inUnits_den_pos hden num e
  rw [← inUnits_ratio num hden e, mul_le_mul_iff_left₀ (by positivity), div_le_iff₀ hpos]
  exact_mod_cast Iff.rfl

-- ════════════════════════════════════════════════════════════════════════
-- The exponent of the mantissa
-- ════════════════════════════════════════════════════════════════════════

/-- The binary logarithms of numerator and denominator leave a factor of two on either side. -/
theorem log2_bounds {num den : Nat} (hnum : 0 < num) (hden : 0 < den) :
    (2 : ℚ) ^ ((Nat.log2 num : Int) - Nat.log2 den - 1) < num / den ∧
      (num / den : ℚ) < 2 ^ ((Nat.log2 num : Int) - Nat.log2 den + 1) := by
  have htwo : (2 : ℚ) ≠ 0 := two_ne_zero
  have hd : (0 : ℚ) < den := by exact_mod_cast hden
  have hnumLow : (2 : ℚ) ^ (Nat.log2 num : Int) ≤ num := by
    exact_mod_cast Nat.log2_self_le hnum.ne'
  have hnumHigh : (num : ℚ) < 2 ^ ((Nat.log2 num : Int) + 1) := by
    exact_mod_cast Nat.lt_log2_self (n := num)
  have hdenLow : (2 : ℚ) ^ (Nat.log2 den : Int) ≤ den := by
    exact_mod_cast Nat.log2_self_le hden.ne'
  have hdenHigh : (den : ℚ) < 2 ^ ((Nat.log2 den : Int) + 1) := by
    exact_mod_cast Nat.lt_log2_self (n := den)
  constructor
  · rw [lt_div_iff₀ hd]
    calc (2 : ℚ) ^ ((Nat.log2 num : Int) - Nat.log2 den - 1) * den
        < 2 ^ ((Nat.log2 num : Int) - Nat.log2 den - 1) * 2 ^ ((Nat.log2 den : Int) + 1) := by
          gcongr
      _ = 2 ^ (Nat.log2 num : Int) := by
          rw [← zpow_add₀ htwo]
          congr 1
          ring
      _ ≤ num := hnumLow
  · rw [div_lt_iff₀ hd]
    calc (num : ℚ) < 2 ^ ((Nat.log2 num : Int) + 1) := hnumHigh
      _ = 2 ^ ((Nat.log2 num : Int) - Nat.log2 den + 1) * 2 ^ (Nat.log2 den : Int) := by
          rw [← zpow_add₀ htwo]
          congr 1
          ring
      _ ≤ 2 ^ ((Nat.log2 num : Int) - Nat.log2 den + 1) * den := by gcongr

/-- At its exponent the mantissa has at most 53 bits, and it has as many unless the exponent is the
least one. -/
theorem mantissaExponent_spec {num den : Nat} (hnum : 0 < num) (hden : 0 < den) :
    minExponent ≤ mantissaExponent num den ∧
      (num / den : ℚ) < 2 ^ (mantissaExponent num den + 53) ∧
      (mantissaExponent num den = minExponent ∨
        (2 : ℚ) ^ (mantissaExponent num den + 52) ≤ num / den) := by
  obtain ⟨hlow, hhigh⟩ := log2_bounds hnum hden
  set low := max minExponent ((Nat.log2 num : Int) - Nat.log2 den - 53) with hlowdef
  have hreach : Nat.pow 2 53 ≤ (inUnits num den low).1 / (inUnits num den low).2 ↔
      (2 : ℚ) ^ (low + 53) ≤ num / den := by
    rw [Nat.le_div_iff_mul_le (inUnits_den_pos hden num low), mul_le_inUnits_iff num hden,
      zpow_add₀ two_ne_zero, mul_comm]
    norm_num
  have hexponent : mantissaExponent num den =
      if (2 : ℚ) ^ (low + 53) ≤ num / den then low + 1 else low := by
    simp only [mantissaExponent, ← hlowdef, hreach]
  rw [hexponent]
  split
  · next h =>
    refine ⟨by omega, ?_, .inr ?_⟩
    · exact hhigh.trans_le (zpow_le_zpow_right₀ one_le_two (by omega))
    · exact le_of_eq_of_le (by ring_nf) h
  · next h =>
    refine ⟨le_max_left _ _, not_le.mp h, ?_⟩
    rcases max_choice minExponent ((Nat.log2 num : Int) - Nat.log2 den - 53) with hmax | hmax
    · exact .inl (hlowdef.trans hmax)
    · right
      refine le_trans (zpow_le_zpow_right₀ one_le_two ?_) hlow.le
      omega

-- ════════════════════════════════════════════════════════════════════════
-- Patterns
-- ════════════════════════════════════════════════════════════════════════

/-- The mantissa that the number nearest to a quotient has at its exponent. -/
def mantissaOfRatio (num den : Nat) : Nat :=
  let (n, d) := inUnits num den (mantissaExponent num den)
  roundHalfEven n d

theorem magnitudeOfRatio_eq {num : Nat} (hnum : 0 < num) (den : Nat) :
    magnitudeOfRatio num den = min infinityBits
      (mantissaOfRatio num den
        + (mantissaExponent num den - minExponent).toNat * Nat.pow 2 52) := by
  rw [magnitudeOfRatio, if_neg hnum.ne']
  rfl

theorem mantissaOfRatio_le {num den : Nat} (hnum : 0 < num) (hden : 0 < den) :
    mantissaOfRatio num den ≤ 2 ^ 53 := by
  refine roundHalfEven_le (inUnits_den_pos hden num _) ((inUnits_le_mul_iff num hden _ _).mpr ?_)
  have h := (mantissaExponent_spec hnum hden).2.1
  rw [zpow_add₀ two_ne_zero, mul_comm] at h
  exact_mod_cast h.le

theorem le_mantissaOfRatio {num den : Nat} (hnum : 0 < num) (hden : 0 < den)
    (h : mantissaExponent num den ≠ minExponent) : 2 ^ 52 ≤ mantissaOfRatio num den := by
  refine le_roundHalfEven (inUnits_den_pos hden num _) ((mul_le_inUnits_iff num hden _ _).mpr ?_)
  have hlow := (mantissaExponent_spec hnum hden).2.2.resolve_left h
  rw [zpow_add₀ two_ne_zero, mul_comm] at hlow
  exact_mod_cast hlow

/-- The rounded number is at most half a unit above the quotient. -/
theorem mantissaOfRatio_le_add_half (num : Nat) {den : Nat} (hden : 0 < den) :
    (mantissaOfRatio num den : ℚ) * 2 ^ mantissaExponent num den ≤
      num / den + 2 ^ (mantissaExponent num den - 1) := by
  set e := mantissaExponent num den
  have hpos : (0 : ℚ) < (inUnits num den e).2 := by exact_mod_cast inUnits_den_pos hden num e
  have hround : 2 * ((mantissaOfRatio num den : ℚ) * (inUnits num den e).2) ≤
      2 * (inUnits num den e).1 + (inUnits num den e).2 := by
    exact_mod_cast roundHalfEven_le_add_half (inUnits num den e).1 (inUnits num den e).2
  have hquot : (mantissaOfRatio num den : ℚ) ≤
      (inUnits num den e).1 / (inUnits num den e).2 + 1 / 2 := by
    rw [div_add_div _ _ hpos.ne' two_ne_zero, le_div_iff₀ (by positivity)]
    linarith
  calc (mantissaOfRatio num den : ℚ) * 2 ^ e
      ≤ ((inUnits num den e).1 / (inUnits num den e).2 + 1 / 2) * 2 ^ e := by gcongr
    _ = num / den + 2 ^ (e - 1) := by
        rw [add_mul, inUnits_ratio num hden, zpow_sub_one₀ two_ne_zero]
        ring

/-- A quotient below the limit has an exponent of the format. -/
theorem mantissaExponent_le {num den : Nat} (hnum : 0 < num) (hden : 0 < den)
    (h : (num / den : ℚ) < overflow) : mantissaExponent num den ≤ 971 := by
  obtain ⟨_, _, hleast⟩ := mantissaExponent_spec hnum hden
  rw [overflow_cast] at h
  rcases hleast with he | hlow
  · rw [he]
    decide
  · by_contra hgt
    have hunit : (0 : ℚ) < 2 ^ (970 : Int) := by positivity
    have hpow : (2 : ℚ) ^ (54 + 970 : Int) ≤ 2 ^ (mantissaExponent num den + 52) :=
      zpow_le_zpow_right₀ one_le_two (by omega)
    rw [zpow_add₀ two_ne_zero] at hpow
    generalize (2 : ℚ) ^ (970 : Int) = unit at *
    norm_num only at hpow h
    linarith

/-- A quotient below the limit is rounded to a finite number. -/
theorem magnitudeOfRatio_lt {num den : Nat} (hnum : 0 < num) (hden : 0 < den)
    (h : (num / den : ℚ) < overflow) :
    mantissaOfRatio num den + (mantissaExponent num den - minExponent).toNat * Nat.pow 2 52
      < infinityBits := by
  have hmin := (mantissaExponent_spec hnum hden).1
  have hmantissa := mantissaOfRatio_le hnum hden
  have hround := mantissaOfRatio_le_add_half num hden
  rcases (mantissaExponent_le hnum hden h).lt_or_eq with hlt | heq
  · have hsteps : (mantissaExponent num den - minExponent).toNat ≤ 2044 := by
      simp only [minExponent]
      omega
    simp only [infinityBits, Nat.pow_eq]
    omega
  -- at the greatest exponent the mantissa does not reach the next power of two
  · rw [heq, show (971 : Int) - 1 = 970 from rfl, show (971 : Int) = 1 + 970 from rfl,
      zpow_add₀ two_ne_zero, zpow_one] at hround
    rw [overflow_cast] at h
    have hunit : (0 : ℚ) < 2 ^ (970 : Int) := by positivity
    have hsmall : (mantissaOfRatio num den : ℚ) < 2 ^ 53 := by
      generalize (2 : ℚ) ^ (970 : Int) = unit at *
      by_contra hge
      have := mul_le_mul_of_nonneg_right (not_lt.mp hge) hunit.le
      norm_num only at h this
      linarith
    have hlt : mantissaOfRatio num den < 2 ^ 53 := by exact_mod_cast hsmall
    have hsteps : (mantissaExponent num den - minExponent).toNat = 2045 := by
      rw [heq]
      rfl
    simp only [infinityBits, Nat.pow_eq, hsteps]
    omega

-- ════════════════════════════════════════════════════════════════════════
-- Values of patterns
-- ════════════════════════════════════════════════════════════════════════

theorem value_ofSignMagnitude {negative : Bool} {bits : Nat} (h : bits < infinityBits) :
    (ofSignMagnitude negative bits).value =
      if bits / 2 ^ 52 = 0 then .finite negative (bits % 2 ^ 52) minExponent
      else .finite negative (2 ^ 52 + bits % 2 ^ 52) (minExponent + (bits / 2 ^ 52 - 1 : Nat)) := by
  simp only [infinityBits, Nat.pow_eq] at h
  obtain ⟨n, hn⟩ : ∃ n, n = (if negative then 2 ^ 63 else 0) + bits := ⟨_, rfl⟩
  have hbits : (ofSignMagnitude negative bits).bits.toNat = n := by
    rw [hn]
    refine UInt64.toNat_ofNat_of_lt' ?_
    simp only [UInt64.size, Nat.pow_eq]
    split <;> omega
  have hbiased : n / 2 ^ 52 % 2048 = bits / 2 ^ 52 := by
    split at hn <;> omega
  have hfraction : n % 2 ^ 52 = bits % 2 ^ 52 := by
    split at hn <;> omega
  have hsign : decide (2 ^ 63 ≤ n) = negative := by
    cases negative <;> simp at hn ⊢ <;> omega
  simp only [value, hbits, Nat.pow_eq, hbiased, hfraction, hsign]
  rw [if_neg (by omega)]

/-- What is below infinity is no infinity. -/
theorem ofSignMagnitude_isInfinite {bits : Nat} (h : bits < infinityBits) :
    (ofSignMagnitude false bits).isInfinite = false := by
  rw [isInfinite, value_ofSignMagnitude h]
  split
  · next heq => split at heq <;> exact nomatch heq
  · rfl

/-- A mantissa of 53 bits with its exponent, or the next power of two, as a pattern. -/
theorem value_of_mantissa {mantissa steps : Nat} (hlow : 2 ^ 52 ≤ mantissa)
    (hhigh : mantissa ≤ 2 ^ 53) (h : mantissa + steps * 2 ^ 52 < infinityBits) :
    ∃ m e, (ofSignMagnitude false (mantissa + steps * 2 ^ 52)).value = .finite false m e ∧
      (m : ℚ) * 2 ^ e = mantissa * 2 ^ (minExponent + steps) := by
  rw [value_ofSignMagnitude h, if_neg (by omega)]
  refine ⟨_, _, rfl, ?_⟩
  rcases hhigh.lt_or_eq with hlt | rfl
  · have hmantissa : 2 ^ 52 + (mantissa + steps * 2 ^ 52) % 2 ^ 52 = mantissa := by omega
    have hsteps : (mantissa + steps * 2 ^ 52) / 2 ^ 52 - 1 = steps := by omega
    rw [hmantissa, hsteps]
  · have hmantissa : 2 ^ 52 + (2 ^ 53 + steps * 2 ^ 52) % 2 ^ 52 = 2 ^ 52 := by omega
    have hsteps : (2 ^ 53 + steps * 2 ^ 52) / 2 ^ 52 - 1 = steps + 1 := by omega
    rw [hmantissa, hsteps, Nat.cast_add_one, ← add_assoc, zpow_add_one₀ two_ne_zero]
    norm_num
    ring

/-- Numbers below the limit stay finite. -/
theorem ofRatio_isInfinite {num den : Nat} (hden : 0 < den) (h : (num / den : ℚ) < overflow) :
    (ofRatio false num den).isInfinite = false := by
  refine ofSignMagnitude_isInfinite ?_
  rcases Nat.eq_zero_or_pos num with rfl | hnum
  · rw [magnitudeOfRatio, if_pos rfl]
    decide
  · rw [magnitudeOfRatio_eq hnum]
    exact (min_le_right _ _).trans_lt (magnitudeOfRatio_lt hnum hden h)

/-- A natural of so many bits has an exponent that reaches no further. -/
theorem mantissaExponent_natCast_le {n twos : Nat} (hn : 0 < n) (hbits : n < 2 ^ (53 + twos)) :
    mantissaExponent n 1 ≠ minExponent ∧ mantissaExponent n 1 ≤ twos := by
  obtain ⟨_, hhigh, hlow⟩ := mantissaExponent_spec hn one_pos
  rw [Nat.cast_one, div_one] at hhigh hlow
  have hne : mantissaExponent n 1 ≠ minExponent := by
    intro heq
    have hone : (1 : ℚ) ≤ n := by exact_mod_cast hn
    have hsmall : (2 : ℚ) ^ (mantissaExponent n 1 + 53) ≤ 2 ^ (0 : Int) :=
      zpow_le_zpow_right₀ one_le_two (by rw [heq, minExponent]; decide)
    rw [zpow_zero] at hsmall
    linarith
  have hpow : (2 : ℚ) ^ (mantissaExponent n 1 + 52) < 2 ^ (53 + twos : Int) :=
    (hlow.resolve_left hne).trans_lt (by exact_mod_cast hbits)
  have hexponent := (zpow_lt_zpow_iff_right₀ (one_lt_two (α := ℚ))).mp hpow
  exact ⟨hne, by omega⟩

/-- Rounding a natural up does not pass a number of the format. -/
theorem ofNat_value_le {n bound twos : Nat} (hn : 0 < n) (hle : n ≤ bound)
    (hbits : n < 2 ^ (53 + twos)) (htwos : 2 ^ twos ∣ bound) (hbound : bound < overflow) :
    ∃ m e, (ofNat n).value = .finite false m e ∧ (m : ℚ) * 2 ^ e ≤ bound := by
  have hmin := (mantissaExponent_spec hn one_pos).1
  obtain ⟨hne, hexponent⟩ := mantissaExponent_natCast_le hn hbits
  set e := mantissaExponent n 1
  -- the bound is a whole number of units
  obtain ⟨c, rfl⟩ := htwos
  have hunits : ((c * 2 ^ (twos - e).toNat : Nat) : ℚ) * 2 ^ e = (2 ^ twos * c : Nat) := by
    have hpow : (2 : ℚ) ^ (twos - e).toNat = 2 ^ (twos - e : Int) := by
      rw [← zpow_natCast, Int.toNat_of_nonneg (by omega)]
    rw [Nat.cast_mul, Nat.cast_mul, Nat.cast_pow, Nat.cast_pow, Nat.cast_ofNat, hpow, mul_assoc,
      ← zpow_add₀ two_ne_zero, sub_add_cancel, zpow_natCast, mul_comm]
  have hmantissa : mantissaOfRatio n 1 ≤ c * 2 ^ (twos - e).toNat := by
    refine roundHalfEven_le (inUnits_den_pos one_pos n _) ((inUnits_le_mul_iff n one_pos _ _).mpr ?_)
    rw [Nat.cast_one, div_one, hunits]
    exact_mod_cast hle
  have hfinite := magnitudeOfRatio_lt hn one_pos (by
    rw [Nat.cast_one, div_one]
    exact_mod_cast hle.trans_lt hbound)
  obtain ⟨m, f, hvalue, heq⟩ :=
    value_of_mantissa (le_mantissaOfRatio hn one_pos hne) (mantissaOfRatio_le hn one_pos) hfinite
  refine ⟨m, f, ?_, ?_⟩
  · rw [ofNat, ofRatio, magnitudeOfRatio_eq hn, min_eq_right hfinite.le]
    exact hvalue
  · rw [heq, Int.toNat_of_nonneg (by omega), add_sub_cancel, ← hunits]
    gcongr

/-- A product below the limit is finite. -/
theorem mul_isInfinite {x y : Binary64} {m n : Nat} {e f : Int} (hx : x.value = .finite false m e)
    (hy : y.value = .finite false n f)
    (h : (m : ℚ) * 2 ^ e * (n * 2 ^ f) < overflow) : (x.mul y).isInfinite = false := by
  have hmul : x.mul y = mulMagnitude m e n f := by
    rw [mul, hx, hy]
  rw [hmul, mulMagnitude]
  refine ofRatio_isInfinite (Nat.pow_pos (by decide)) (lt_of_eq_of_lt ?_ h)
  rw [mul_mul_mul_comm, ← zpow_add₀ two_ne_zero]
  generalize e + f = s
  obtain ⟨k, rfl | rfl⟩ := s.eq_nat_or_neg
  · simp
  · simp [div_eq_mul_inv]

end CustomFunctions.Binary64
