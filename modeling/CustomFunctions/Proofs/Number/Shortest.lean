import CustomFunctions.Number.Shortest
import CustomFunctions.Proofs.Number.Rounding

/-!
# The size of shortest decimals

The digits of a shortest decimal form a natural of at most seventeen digits, and the decimal is at most
half a unit above the number that it is written for.

## Main definitions

- `Shortest.lt_order` — the leading digit of a number stands where it is looked for
- `Shortest.decimal_spec` — the digits and the size of a shortest decimal
-/

namespace CustomFunctions.Shortest

open Binary64 (minExponent)

-- ════════════════════════════════════════════════════════════════════════
-- Comparing decimals with binary numbers
-- ════════════════════════════════════════════════════════════════════════

theorem zpow_mul_toNat {b : ℚ} (hb : b ≠ 0) (k : Int) : b ^ k * b ^ (-k).toNat = b ^ k.toNat := by
  obtain ⟨n, rfl | rfl⟩ := k.eq_nat_or_neg
  · simp
  · simp [hb]

theorem sides_le_iff (d : Nat) (k : Int) (n : Nat) (e : Int) :
    (sides d k n e).1 ≤ (sides d k n e).2 ↔ (d : ℚ) * 10 ^ k ≤ n * 2 ^ e := by
  have hpos : (0 : ℚ) < 10 ^ (-k).toNat * 2 ^ (-e).toNat := by positivity
  have hdecimal : ((sides d k n e).1 : ℚ) = d * 10 ^ k * (10 ^ (-k).toNat * 2 ^ (-e).toNat) := by
    simp only [sides, Nat.pow_eq, Nat.cast_mul, Nat.cast_pow, Nat.cast_ofNat]
    rw [← zpow_mul_toNat (show (10 : ℚ) ≠ 0 by norm_num) k]
    ring
  have hbinary : ((sides d k n e).2 : ℚ) = n * 2 ^ e * (10 ^ (-k).toNat * 2 ^ (-e).toNat) := by
    simp only [sides, Nat.pow_eq, Nat.cast_mul, Nat.cast_pow, Nat.cast_ofNat]
    rw [← zpow_mul_toNat (show (2 : ℚ) ≠ 0 by norm_num) e]
    ring
  rw [← Nat.cast_le (α := ℚ), hdecimal, hbinary, mul_le_mul_iff_left₀ hpos]

theorem reaches_iff (k : Int) (m : Nat) (e : Int) :
    reaches k m e = true ↔ (10 : ℚ) ^ k ≤ m * 2 ^ e := by
  rw [reaches, decide_eq_true_iff, sides_le_iff, Nat.cast_one, one_mul]

/-- A decimal that rounds to a number is at most half a unit above it. -/
theorem le_of_roundsTo {m : Nat} {e : Int} {d : Nat} {k : Int} (h : roundsTo m e d k = true) :
    (d : ℚ) * 10 ^ k ≤ (4 * m + 2 : Nat) * 2 ^ (e - 2) := by
  rw [← sides_le_iff]
  simp only [roundsTo] at h
  split at h
  · simp only [Bool.and_eq_true, decide_eq_true_eq] at h
    exact h.2
  · simp only [Bool.and_eq_true, decide_eq_true_eq] at h
    exact h.2.le

/-- Zero rounds to no number but zero. -/
theorem pos_of_roundsTo {m : Nat} (hm : 0 < m) {e : Int} {d : Nat} {k : Int}
    (h : roundsTo m e d k = true) : 0 < d := by
  by_contra hd
  obtain rfl : d = 0 := by omega
  have hlow : ∀ below : Nat, below ≤ 2 →
      0 < (sides 0 k (4 * m - below) (e - 2)).2 := by
    intro below hbelow
    simp only [sides, Nat.pow_eq]
    have : 0 < 4 * m - below := by omega
    positivity
  have hzero : ∀ n : Nat, (sides 0 k n (e - 2)).1 = 0 := by
    intro n
    simp [sides]
  simp only [roundsTo, hzero] at h
  have := hlow 1 (by decide)
  have := hlow 2 (by decide)
  split at h <;> split at h <;> simp at h <;> omega

-- ════════════════════════════════════════════════════════════════════════
-- The leading digit
-- ════════════════════════════════════════════════════════════════════════

/-- A guess for the power of ten of the leading digit of `2 ^ l`. -/
def guess (l : Int) : Int :=
  Int.fdiv (l * 30103) 100000

theorem guess_spec (l : Int) : l * 30103 < (guess l + 1) * 100000 := by
  have hfloor : guess l = l * 30103 / 100000 :=
    Int.fdiv_eq_ediv_of_nonneg _ (by decide)
  omega

/-- The guess is too low by less than two powers of ten. The exponents of the format are small enough
for `2 ^ 93 ≤ 10 ^ 28` and `10 ^ 59 ≤ 2 ^ 196` to tell. -/
theorem two_zpow_le_guess {l : Int} (hlow : -1100 ≤ l) (hhigh : l ≤ 1100) :
    (2 : ℚ) ^ (l + 1) ≤ 10 ^ (guess l + 2) := by
  have hguess := guess_spec l
  have hten : (1 : ℚ) ≤ 10 := by norm_num
  rcases le_or_gt 0 l with hl | hl
  · rw [← pow_le_pow_iff_left₀ (by positivity) (by positivity) (show 93 ≠ 0 by decide)]
    calc ((2 : ℚ) ^ (l + 1)) ^ 93 = (2 ^ 93) ^ (l + 1) := by
          rw [← zpow_natCast, ← zpow_mul, mul_comm, zpow_mul, zpow_natCast]
      _ ≤ (10 ^ 28) ^ (l + 1) := zpow_le_zpow_left₀ (by omega) (by positivity) (by norm_num)
      _ = 10 ^ (28 * (l + 1)) := by rw [zpow_mul, ← zpow_natCast]; rfl
      _ ≤ 10 ^ ((guess l + 2) * 93) := zpow_le_zpow_right₀ hten (by omega)
      _ = (10 ^ (guess l + 2)) ^ 93 := by rw [zpow_mul, ← zpow_natCast]; rfl
  · rw [← pow_le_pow_iff_left₀ (by positivity) (by positivity) (show 196 ≠ 0 by decide)]
    have hneg : ((10 : ℚ) ^ 59) ^ (-(l + 1)) ≤ (2 ^ 196) ^ (-(l + 1)) :=
      zpow_le_zpow_left₀ (by omega) (by positivity) (by norm_num)
    have hinv : ((2 : ℚ) ^ 196) ^ (l + 1) ≤ (10 ^ 59) ^ (l + 1) := by
      rw [zpow_neg, zpow_neg] at hneg
      exact (inv_le_inv₀ (by positivity) (by positivity)).mp hneg
    calc ((2 : ℚ) ^ (l + 1)) ^ 196 = (2 ^ 196) ^ (l + 1) := by
          rw [← zpow_natCast, ← zpow_mul, mul_comm, zpow_mul, zpow_natCast]
      _ ≤ (10 ^ 59) ^ (l + 1) := hinv
      _ = 10 ^ (59 * (l + 1)) := by rw [zpow_mul, ← zpow_natCast]; rfl
      _ ≤ 10 ^ ((guess l + 2) * 196) := zpow_le_zpow_right₀ hten (by omega)
      _ = (10 ^ (guess l + 2)) ^ 196 := by rw [zpow_mul, ← zpow_natCast]; rfl

theorem order_eq (m : Nat) (e : Int) :
    order m e =
      if reaches (guess (e + Nat.log2 m) + 1) m e then guess (e + Nat.log2 m) + 1
      else if reaches (guess (e + Nat.log2 m)) m e then guess (e + Nat.log2 m)
      else guess (e + Nat.log2 m) - 1 :=
  rfl

/-- The number is below the power of ten behind its order. -/
theorem lt_order {m : Nat} {e : Int} (hm : 0 < m) (hbits : m < 2 ^ 53) (hlow : minExponent ≤ e)
    (hhigh : e ≤ 971) : (m : ℚ) * 2 ^ e < 10 ^ (order m e + 1) := by
  have hguess : (m : ℚ) * 2 ^ e < 10 ^ (guess (e + Nat.log2 m) + 2) := by
    have hlog : Nat.log2 m < 53 := (Nat.log2_lt hm.ne').mpr hbits
    simp only [minExponent] at hlow
    calc (m : ℚ) * 2 ^ e < 2 ^ ((Nat.log2 m : Int) + 1) * 2 ^ e := by
          gcongr
          exact_mod_cast Nat.lt_log2_self (n := m)
      _ = 2 ^ (e + Nat.log2 m + 1) := by
          rw [← zpow_add₀ two_ne_zero]
          congr 1
          ring
      _ ≤ 10 ^ (guess (e + Nat.log2 m) + 2) := two_zpow_le_guess (by omega) (by omega)
  rw [order_eq]
  split
  · rw [add_assoc]
    exact hguess
  · split
    · next h _ => exact not_le.mp (mt (reaches_iff ..).mpr h)
    · next h =>
      rw [sub_add_cancel]
      exact not_le.mp (mt (reaches_iff ..).mpr h)

theorem order_bounds {m : Nat} {e : Int} (hm : 0 < m) (hbits : m < 2 ^ 53) (hlow : minExponent ≤ e)
    (hhigh : e ≤ 971) : -330 ≤ order m e ∧ order m e ≤ 330 := by
  have hlog : Nat.log2 m < 53 := (Nat.log2_lt hm.ne').mpr hbits
  have hguess : -326 ≤ guess (e + Nat.log2 m) ∧ guess (e + Nat.log2 m) ≤ 326 := by
    simp only [minExponent] at hlow
    rw [guess, Int.fdiv_eq_ediv_of_nonneg _ (by decide)]
    omega
  rw [order_eq]
  split
  · omega
  · split <;> omega

-- ════════════════════════════════════════════════════════════════════════
-- Decimals
-- ════════════════════════════════════════════════════════════════════════

/-- Measured in units of the grid, a number has as many digits as the grid. -/
theorem quotient_lt {m : Nat} {e : Int} (hm : 0 < m) (hbits : m < 2 ^ 53) (hlow : minExponent ≤ e)
    (hhigh : e ≤ 971) {digits : Nat} {grid : Int} (hgrid : grid = order m e - ((digits : Int) - 1)) :
    m * Nat.pow 2 e.toNat * Nat.pow 10 (-grid).toNat / (Nat.pow 2 (-e).toNat * Nat.pow 10 grid.toNat)
      < 10 ^ digits := by
  have hten : (10 : ℚ) ≠ 0 := by norm_num
  simp only [Nat.pow_eq]
  rw [Nat.div_lt_iff_lt_mul (by positivity), ← Nat.cast_lt (α := ℚ)]
  push_cast
  calc (m : ℚ) * 2 ^ e.toNat * 10 ^ (-grid).toNat
      = m * 2 ^ e * (2 ^ (-e).toNat * 10 ^ (-grid) * 10 ^ grid.toNat) := by
        have hunits := zpow_mul_toNat hten (-grid)
        rw [neg_neg] at hunits
        rw [← zpow_mul_toNat two_ne_zero e, ← hunits]
        ring
    _ < 10 ^ (order m e + 1) * (2 ^ (-e).toNat * 10 ^ (-grid) * 10 ^ grid.toNat) := by
        gcongr
        exact lt_order hm hbits hlow hhigh
    _ = 10 ^ digits * (2 ^ (-e).toNat * 10 ^ grid.toNat) := by
        have hpow : (10 : ℚ) ^ digits = 10 ^ (order m e + 1) * 10 ^ (-grid) := by
          rw [← zpow_add₀ hten, ← zpow_natCast]
          congr 1
          omega
        rw [hpow]
        ring

/-- A neighbour on a grid is one of the two naturals around the number and rounds to it. -/
theorem onGrid?_eq_some {m : Nat} {e : Int} {digits d : Nat} {k : Int}
    (h : onGrid? m e digits = some (d, k)) :
    roundsTo m e d k = true ∧ k = order m e - ((digits : Int) - 1) ∧
      d ≤ m * Nat.pow 2 e.toNat * Nat.pow 10 (-k).toNat /
        (Nat.pow 2 (-e).toNat * Nat.pow 10 k.toNat) + 1 := by
  simp only [onGrid?] at h
  generalize order m e - ((digits : Int) - 1) = grid at h ⊢
  generalize hnum : m * Nat.pow 2 e.toNat * Nat.pow 10 (-grid).toNat = num at h
  generalize hden : Nat.pow 2 (-e).toNat * Nat.pow 10 grid.toNat = den at h
  have hnearest : Binary64.roundHalfEven num den ≤ num / den + 1 := by
    rcases Binary64.roundHalfEven_cases num den with ⟨heq, _⟩ | ⟨heq, _⟩ <;> omega
  have hother : (if Binary64.roundHalfEven num den = num / den then num / den + 1 else num / den)
      ≤ num / den + 1 := by
    split <;> omega
  generalize (if Binary64.roundHalfEven num den = num / den then num / den + 1 else num / den)
    = other at h hother
  split at h
  · next hrounds =>
    obtain ⟨rfl, rfl⟩ := Prod.mk.inj (Option.some.inj h)
    exact ⟨hrounds, rfl, by rwa [hnum, hden]⟩
  · obtain ⟨hrounds, heq⟩ := Option.ite_none_right_eq_some.mp h
    obtain ⟨rfl, rfl⟩ := Prod.mk.inj (Option.some.inj heq)
    exact ⟨hrounds, rfl, by rwa [hnum, hden]⟩

/-- The neighbour on a grid has as many digits as the grid, or is the next power of ten. -/
theorem onGrid?_spec {m : Nat} {e : Int} (hm : 0 < m) (hbits : m < 2 ^ 53) (hlow : minExponent ≤ e)
    (hhigh : e ≤ 971) {digits d : Nat} {k : Int} (h : onGrid? m e digits = some (d, k)) :
    0 < d ∧ d ≤ 10 ^ digits ∧ (d : ℚ) * 10 ^ k ≤ (4 * m + 2 : Nat) * 2 ^ (e - 2) := by
  obtain ⟨hrounds, hk, hd⟩ := onGrid?_eq_some h
  have hquotient := quotient_lt hm hbits hlow hhigh hk
  exact ⟨pos_of_roundsTo hm hrounds, by omega, le_of_roundsTo hrounds⟩

theorem stripZeros_spec (fuel d : Nat) (k : Int) :
    ((stripZeros fuel d k).1 : ℚ) * 10 ^ (stripZeros fuel d k).2 = d * 10 ^ k ∧
      (stripZeros fuel d k).1 ≤ d ∧ (0 < d → 0 < (stripZeros fuel d k).1) := by
  fun_induction stripZeros fuel d k with
  | case1 => exact ⟨rfl, le_rfl, id⟩
  | case2 fuel d k h ih =>
    obtain ⟨heq, hle, hpos⟩ := ih
    have hd : d = d / 10 * 10 := by omega
    refine ⟨?_, by omega, fun _ => hpos (by omega)⟩
    rw [heq, zpow_add_one₀ (by norm_num)]
    have hcast : (d : ℚ) = (d / 10 : Nat) * 10 := by exact_mod_cast hd
    rw [hcast]
    ring
  | case3 => exact ⟨rfl, le_rfl, id⟩

theorem stripZeros_exponent (fuel d : Nat) (k : Int) :
    k ≤ (stripZeros fuel d k).2 ∧ (stripZeros fuel d k).2 ≤ k + fuel := by
  fun_induction stripZeros fuel d k with
  | case1 => omega
  | case2 fuel d k h ih => omega
  | case3 => omega

/-- A shortest decimal has at most seventeen digits and is at most half a unit too large. -/
theorem decimal_spec {m : Nat} {e : Int} (hm : 0 < m) (hbits : m < 2 ^ 53) (hlow : minExponent ≤ e)
    (hhigh : e ≤ 971) :
    decimal m e = (0, 0) ∨
      (0 < (decimal m e).1 ∧ (decimal m e).1 ≤ 10 ^ 17 ∧ (decimal m e).2.natAbs ≤ 400 ∧
        ((decimal m e).1 : ℚ) * 10 ^ (decimal m e).2 ≤ (4 * m + 2 : Nat) * 2 ^ (e - 2)) := by
  rcases hfound : (List.range 17).findSome? fun i => onGrid? m e (i + 1) with _ | ⟨d, k⟩
  · left
    rw [decimal, hfound]
  · have hdecimal : decimal m e = stripZeros 20 d k := by
      rw [decimal, hfound]
    rw [hdecimal]
    obtain ⟨i, hi, hgrid⟩ := List.exists_of_findSome?_eq_some hfound
    obtain ⟨hpos, hdigits, hle⟩ := onGrid?_spec hm hbits hlow hhigh hgrid
    obtain ⟨heq, hless, hstill⟩ := stripZeros_spec 20 d k
    have hi : i < 17 := List.mem_range.mp hi
    have hpow : 10 ^ (i + 1) ≤ 10 ^ 17 := Nat.pow_le_pow_right (by decide) (by omega)
    have hk := (onGrid?_eq_some hgrid).2.1
    have horder := order_bounds hm hbits hlow hhigh
    have hstrip := stripZeros_exponent 20 d k
    exact .inr ⟨hstill hpos, by omega, by omega, heq ▸ hle⟩

end CustomFunctions.Shortest
