import CustomFunctions.Proofs.Number.Rounding

/-!
# Integers in binary floating point

An integer of at most 53 bits is a number of the format, and adding to it is exact as long as the sum
has at most 53 bits.

## Main definitions

- `Binary64.ofInt` — the number nearest to an integer
- `Binary64.toInt?_ofInt` — the integer is found again
- `Binary64.add_ofNat` — adding a natural to an integer is exact
-/

namespace CustomFunctions.Binary64

/-- The number nearest to an integer. -/
def ofInt (v : Int) : Binary64 :=
  ofRatio (decide (v < 0)) v.natAbs 1

-- ════════════════════════════════════════════════════════════════════════
-- The pattern of an integer
-- ════════════════════════════════════════════════════════════════════════

variable {n den : Nat}

theorem roundHalfEven_mul (hden : 0 < den) (c : Nat) : roundHalfEven (c * den) den = c :=
  le_antisymm (roundHalfEven_le hden le_rfl) (le_roundHalfEven hden le_rfl)

theorem log2_le (hn : 0 < n) (hsmall : n < 2 ^ 53) : Nat.log2 n ≤ 52 := by
  have := (Nat.log2_lt hn.ne').mpr hsmall
  omega

/-- The mantissa of an integer begins with its first bit. -/
theorem mantissaExponent_mul (hn : 0 < n) (hsmall : n < 2 ^ 53) (hden : 0 < den) :
    mantissaExponent (n * den) den = (Nat.log2 n : Int) - 52 := by
  obtain ⟨_, hhigh, hlow⟩ := mantissaExponent_spec (Nat.mul_pos hn hden) hden
  have hlog := log2_le hn hsmall
  have hratio : ((n * den : Nat) : ℚ) / den = n := by
    rw [Nat.cast_mul, mul_div_cancel_right₀]
    exact_mod_cast hden.ne'
  rw [hratio] at hhigh hlow
  have hfirst : (2 : ℚ) ^ (Nat.log2 n : Int) ≤ n := by
    exact_mod_cast Nat.log2_self_le hn.ne'
  have hlast : (n : ℚ) < 2 ^ ((Nat.log2 n : Int) + 1) := by
    exact_mod_cast Nat.lt_log2_self (n := n)
  have hge := (zpow_lt_zpow_iff_right₀ (one_lt_two (α := ℚ))).mp (hfirst.trans_lt hhigh)
  rcases hlow with hleast | hlow
  · rw [hleast, minExponent] at hge ⊢
    omega
  · have hle := (zpow_lt_zpow_iff_right₀ (one_lt_two (α := ℚ))).mp (hlow.trans_lt hlast)
    omega

theorem mantissaOfRatio_mul (hn : 0 < n) (hsmall : n < 2 ^ 53) (hden : 0 < den) :
    mantissaOfRatio (n * den) den = n * 2 ^ (52 - Nat.log2 n) := by
  have hlog := log2_le hn hsmall
  have hunits : inUnits (n * den) den ((Nat.log2 n : Int) - 52) =
      (n * 2 ^ (52 - Nat.log2 n) * den, den) := by
    have hneg : (-((Nat.log2 n : Int) - 52)).toNat = 52 - Nat.log2 n := by omega
    have hpos : ((Nat.log2 n : Int) - 52).toNat = 0 := by omega
    rw [inUnits, hneg, hpos, Nat.pow_eq, Nat.mul_right_comm]
    simp
  rw [mantissaOfRatio, mantissaExponent_mul hn hsmall hden, hunits]
  exact roundHalfEven_mul hden _

theorem mantissa_bounds (hn : 0 < n) (hsmall : n < 2 ^ 53) :
    2 ^ 52 ≤ n * 2 ^ (52 - Nat.log2 n) ∧ n * 2 ^ (52 - Nat.log2 n) < 2 ^ 53 := by
  have hlog := log2_le hn hsmall
  constructor
  · calc 2 ^ 52 = 2 ^ Nat.log2 n * 2 ^ (52 - Nat.log2 n) := by
          rw [← Nat.pow_add]
          congr 1
          omega
      _ ≤ n * 2 ^ (52 - Nat.log2 n) := Nat.mul_le_mul_right _ (Nat.log2_self_le hn.ne')
  · calc n * 2 ^ (52 - Nat.log2 n)
        < 2 ^ (Nat.log2 n + 1) * 2 ^ (52 - Nat.log2 n) :=
          Nat.mul_lt_mul_of_pos_right Nat.lt_log2_self (Nat.pow_pos (by decide))
      _ = 2 ^ 53 := by
          rw [← Nat.pow_add]
          congr 1
          omega

theorem magnitudeOfRatio_mul (hn : 0 < n) (hsmall : n < 2 ^ 53) (hden : 0 < den) :
    magnitudeOfRatio (n * den) den =
      n * 2 ^ (52 - Nat.log2 n) + (Nat.log2 n + 1022) * 2 ^ 52 := by
  have hlog := log2_le hn hsmall
  have hmantissa := (mantissa_bounds hn hsmall).2
  have hsteps : ((Nat.log2 n : Int) - 52 - minExponent).toNat = Nat.log2 n + 1022 := by
    rw [minExponent]
    omega
  rw [magnitudeOfRatio_eq (Nat.mul_pos hn hden), mantissaOfRatio_mul hn hsmall hden,
    mantissaExponent_mul hn hsmall hden, hsteps, Nat.pow_eq]
  refine min_eq_right ?_
  rw [infinityBits, Nat.pow_eq]
  omega

/-- A quotient that is an integer is rounded as the integer. -/
theorem ofRatio_mul (negative : Bool) (hsmall : n < 2 ^ 53) (hden : 0 < den) :
    ofRatio negative (n * den) den = ofRatio negative n 1 := by
  rcases Nat.eq_zero_or_pos n with rfl | hn
  · rw [Nat.zero_mul, ofRatio, ofRatio, magnitudeOfRatio, magnitudeOfRatio, if_pos rfl, if_pos rfl]
  · have hone := magnitudeOfRatio_mul hn hsmall one_pos
    rw [Nat.mul_one] at hone
    rw [ofRatio, ofRatio, magnitudeOfRatio_mul hn hsmall hden, hone]

theorem value_ofRatio_one (negative : Bool) (hn : 0 < n) (hsmall : n < 2 ^ 53) :
    (ofRatio negative n 1).value =
      .finite negative (n * 2 ^ (52 - Nat.log2 n)) ((Nat.log2 n : Int) - 52) := by
  have hlog := log2_le hn hsmall
  have hmantissa := mantissa_bounds hn hsmall
  have hbits := magnitudeOfRatio_mul hn hsmall one_pos
  rw [Nat.mul_one] at hbits
  generalize n * 2 ^ (52 - Nat.log2 n) = mantissa at *
  rw [ofRatio, hbits, value_ofSignMagnitude, if_neg (by omega)]
  · have hfraction :
        2 ^ 52 + (mantissa + (Nat.log2 n + 1022) * 2 ^ 52) % 2 ^ 52 = mantissa := by omega
    have hsteps : (mantissa + (Nat.log2 n + 1022) * 2 ^ 52) / 2 ^ 52 - 1 = Nat.log2 n + 1022 := by
      omega
    have hexponent : minExponent + (Nat.log2 n + 1022 : Nat) = (Nat.log2 n : Int) - 52 := by
      rw [minExponent]
      omega
    rw [hfraction, hsteps, hexponent]
  · rw [infinityBits, Nat.pow_eq]
    omega

-- ════════════════════════════════════════════════════════════════════════
-- The integer of a pattern
-- ════════════════════════════════════════════════════════════════════════

variable {v : Int}

/-- An integer of at most 53 bits is a number of the format. -/
theorem toInt?_ofInt (h : v.natAbs < 2 ^ 53) : (ofInt v).toInt? = some v := by
  rcases Nat.eq_zero_or_pos v.natAbs with hzero | hpos
  · rw [Int.natAbs_eq_zero.mp hzero]
    decide +kernel
  · have hlog := log2_le hpos h
    have hneg : (-((Nat.log2 v.natAbs : Int) - 52)).toNat = 52 - Nat.log2 v.natAbs := by omega
    have hexponent : ((Nat.log2 v.natAbs : Int) - 52).toNat = 0 := by omega
    have hunit : 0 < 2 ^ (52 - Nat.log2 v.natAbs) := Nat.pow_pos (by decide)
    rw [toInt?, ofInt, value_ofRatio_one _ hpos h]
    simp only [hneg, hexponent, Nat.pow_eq, Nat.mul_mod_left, Nat.mul_div_cancel _ hunit, pow_zero,
      mul_one, if_true, decide_eq_true_eq, Option.some.injEq]
    split <;> omega

/-- The number of units in an integer, for a unit of which its last bit is a multiple. -/
theorem exists_scaled_of_toInt? {x : Binary64} (h : x.toInt? = some v) :
    ∃ negative m e, x.value = .finite negative m e ∧
      ∀ unit ≤ e, scaled negative m e unit * 2 ^ unit.toNat = v * 2 ^ (-unit).toNat := by
  rw [toInt?] at h
  split at h
  · next negative m e hvalue =>
    refine ⟨negative, m, e, hvalue, fun unit hunit => ?_⟩
    dsimp only at h
    split at h
    · next hdvd =>
      -- the mantissa without the bits behind the point
      have hmagnitude : m * 2 ^ (e - unit).toNat * 2 ^ unit.toNat =
          m / 2 ^ (-e).toNat * 2 ^ e.toNat * 2 ^ (-unit).toNat := by
        obtain ⟨c, hc⟩ := Nat.dvd_of_mod_eq_zero hdvd
        rw [Nat.pow_eq] at hc
        rw [hc, Nat.mul_div_cancel_left _ (Nat.pow_pos (by decide)), Nat.mul_comm _ c, Nat.mul_assoc,
          Nat.mul_assoc, Nat.mul_assoc, ← Nat.pow_add, ← Nat.pow_add, ← Nat.pow_add]
        congr 2
        omega
      obtain rfl := Option.some.inj h
      rw [scaled]
      split
      · rw [Int.neg_mul, Int.neg_mul]
        exact congrArg Neg.neg (by exact_mod_cast hmagnitude)
      · exact_mod_cast hmagnitude
    · cases h
  · cases h

/-- Adding a natural to an integer is exact. -/
theorem add_ofNat {x : Binary64} (hx : x.toInt? = some v) (hn : 0 < n) (hsmall : n < 2 ^ 53)
    (hsum : (v + n).natAbs < 2 ^ 53) : x.add (ofNat n) = ofInt (v + n) := by
  obtain ⟨negative, m, e, hvalue, hscaled⟩ := exists_scaled_of_toInt? hx
  have hn' : (ofNat n).toInt? = some (n : Int) := toInt?_ofInt (v := n) hsmall
  obtain ⟨negative', m', e', hvalue', hscaled'⟩ := exists_scaled_of_toInt? hn'
  have hpositive : negative' = false := by
    rw [ofNat, value_ofRatio_one _ hn hsmall] at hvalue'
    cases hvalue'
    rfl
  rw [hpositive] at hvalue' hscaled'
  rw [add, hvalue, hvalue']
  dsimp only
  set unit := min e e'
  set sum := scaled negative m e unit + scaled false m' e' unit
  have hunits : sum * 2 ^ unit.toNat = (v + n) * 2 ^ (-unit).toNat := by
    rw [Int.add_mul, Int.add_mul, hscaled unit (min_le_left ..), hscaled' unit (min_le_right ..)]
  have hpos (k : Nat) : (0 : Int) < 2 ^ k := pow_pos (by decide) k
  have hzero : sum = 0 ↔ v + n = 0 := by
    constructor
    · intro h
      rw [h, Int.zero_mul] at hunits
      exact (Int.mul_eq_zero.mp hunits.symm).resolve_right (hpos _).ne'
    · intro h
      rw [h, Int.zero_mul] at hunits
      exact (Int.mul_eq_zero.mp hunits).resolve_right (hpos _).ne'
  have hsign : sum < 0 ↔ v + n < 0 := by
    have hneg (z : Int) (k : Nat) : z * 2 ^ k < 0 ↔ z < 0 := by
      have h := mul_lt_mul_iff_left₀ (b := z) (c := 0) (hpos k)
      rwa [Int.zero_mul] at h
    rw [← hneg sum, hunits, hneg]
  have hnatAbs : sum.natAbs * 2 ^ unit.toNat = (v + n).natAbs * 2 ^ (-unit).toNat := by
    have := congrArg Int.natAbs hunits
    simpa [Int.natAbs_mul, Int.natAbs_pow] using this
  split
  · next h =>
    rw [hzero.mp h, Bool.and_false]
    rfl
  · rw [Nat.pow_eq, Nat.pow_eq, hnatAbs, ofRatio_mul _ hsum (Nat.pow_pos (by decide)),
      decide_eq_decide.mpr hsign]
    rfl

end CustomFunctions.Binary64
