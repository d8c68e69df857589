import CustomFunctions.Json.NumberText
import CustomFunctions.Proofs.Number.Shortest

/-!
# Scaling by powers of ten

Reading a number multiplies its digits, rounded to the format, by a power of ten that is rounded too.
The two roundings can move the product up, but the shortest decimal of a finite number never becomes
too large in this way.

## Main definitions

- `NumberLiteral.scale?_isSome_of_neg` — dividing never fails
- `NumberLiteral.scale?_shortest` — the shortest decimal of a finite number can be read
-/

namespace CustomFunctions

namespace Binary64

/-- The mantissas and exponents that finite numbers have. -/
theorem bounds_of_value {x : Binary64} {negative : Bool} {m : Nat} {e : Int}
    (h : x.value = .finite negative m e) : m < 2 ^ 53 ∧ minExponent ≤ e ∧ e ≤ 971 := by
  simp only [value, Nat.pow_eq] at h
  split at h
  · split at h <;> cases h
  · split at h
    · obtain ⟨-, rfl, rfl⟩ := Value.finite.inj h
      exact ⟨by omega, le_rfl, by decide⟩
    · obtain ⟨-, rfl, rfl⟩ := Value.finite.inj h
      simp only [minExponent]
      omega

end Binary64

namespace Json.NumberLiteral

open Binary64 (minExponent overflow ofNat)

/-- Dividing by powers of ten never fails. -/
theorem scale?_isSome_of_neg (fuel : Nat) (x : Binary64) {exponent : Int} (h : exponent < 0) :
    (scale? fuel x exponent).isSome := by
  induction fuel generalizing x exponent with
  | zero => rfl
  | succ fuel ih =>
    rw [scale?]
    split
    · rw [if_neg (by omega)]
      rfl
    · split
      · rfl
      · rw [if_neg (by omega)]
        exact ih _ (by omega)

-- ════════════════════════════════════════════════════════════════════════
-- The greatest products
-- ════════════════════════════════════════════════════════════════════════

/-- Half a unit above the greatest finite number but one. -/
def limit : Nat := (2 ^ 54 - 3) * 2 ^ 970

/-- The greatest digits of a decimal with the exponent `k` that does not pass the limit. -/
def maxDigits (k : Nat) : Nat := min (10 ^ 17) (limit / 10 ^ k)

/-- The power of two whose multiples the numbers of the size of `n` are. -/
def unit (n : Nat) : Nat := Nat.log2 n - 52

/-- The first multiple of the unit from `n` on. -/
def roundUp (n : Nat) : Nat := (n + (2 ^ unit n - 1)) / 2 ^ unit n * 2 ^ unit n

/-- A bound on the product of the digits, rounded, and the power of ten, rounded. -/
def ProductFits (k : Nat) : Prop :=
  match (ofNat (Nat.pow 10 k)).value with
  | .finite negative m e =>
    negative = false ∧
      roundUp (maxDigits k) * (m * 2 ^ e.toNat) < overflow * 2 ^ (-e).toNat
  | _ => False

instance (k : Nat) : Decidable (ProductFits k) := by
  unfold ProductFits
  split <;> infer_instance

theorem productFits : ∀ k < 309, ProductFits k := by
  decide +kernel

theorem le_roundUp (n : Nat) : n ≤ roundUp n := by
  have hpos : 0 < 2 ^ unit n := Nat.two_pow_pos _
  have hdiv := Nat.div_add_mod (n + (2 ^ unit n - 1)) (2 ^ unit n)
  have hmod := Nat.mod_lt (n + (2 ^ unit n - 1)) hpos
  rw [roundUp, Nat.mul_comm]
  omega

theorem lt_of_unit (n : Nat) : n < 2 ^ (53 + unit n) :=
  Nat.lt_log2_self.trans_le (Nat.pow_le_pow_right (by decide) (by rw [unit]; omega))

/-- The digits, rounded to the format, do not pass the rounded bound. -/
theorem ofNat_value_le_roundUp {d n : Nat} (hd : 0 < d) (hle : d ≤ n) (hn : n ≤ 10 ^ 17) :
    ∃ m e, (ofNat d).value = .finite false m e ∧ (m : ℚ) * 2 ^ e ≤ roundUp n := by
  have hunit : unit n ≤ 4 := by
    have hlog : Nat.log2 n < 57 := (Nat.log2_lt (by omega)).mpr (by omega)
    rw [unit]
    omega
  have hsmall : roundUp n ≤ 10 ^ 17 + 2 ^ 4 := by
    have hpow : 2 ^ unit n ≤ 2 ^ 4 := Nat.pow_le_pow_right (by decide) hunit
    have := Nat.div_mul_le_self (n + (2 ^ unit n - 1)) (2 ^ unit n)
    rw [roundUp]
    omega
  exact Binary64.ofNat_value_le hd (hle.trans (le_roundUp n)) (hle.trans_lt (lt_of_unit n))
    (Dvd.intro_left _ rfl) (hsmall.trans_lt (by decide +kernel))

/-- A product whose first factor is bounded by a natural. -/
theorem product_lt {m n bound : Nat} {e f : Int} (hle : (m : ℚ) * 2 ^ e ≤ bound)
    (h : bound * (n * 2 ^ f.toNat) < overflow * 2 ^ (-f).toNat) :
    (m : ℚ) * 2 ^ e * (n * 2 ^ f) < overflow := by
  have hscale : (0 : ℚ) < 2 ^ (-f).toNat := by positivity
  rw [← mul_lt_mul_iff_left₀ hscale]
  calc (m : ℚ) * 2 ^ e * (n * 2 ^ f) * 2 ^ (-f).toNat
      = m * 2 ^ e * (n * (2 ^ f * 2 ^ (-f).toNat)) := by ring
    _ ≤ bound * (n * 2 ^ f.toNat) := by
        rw [Shortest.zpow_mul_toNat two_ne_zero]
        gcongr
    _ < overflow * 2 ^ (-f).toNat := by exact_mod_cast h

/-- A decimal of at most seventeen digits that does not pass the limit can be read. -/
theorem scale?_isSome_of_le {d k : Nat} (hd : 0 < d) (hdigits : d ≤ 10 ^ 17)
    (h : d * 10 ^ k ≤ limit) (fuel : Nat) : (scale? (fuel + 1) (ofNat d) k).isSome := by
  have hk : k < 309 := by
    have hpow : 10 ^ k < 10 ^ 309 := calc
      10 ^ k ≤ d * 10 ^ k := Nat.le_mul_of_pos_left _ hd
      _ ≤ limit := h
      _ < 10 ^ 309 := by decide +kernel
    exact (pow_lt_pow_iff_right₀ (by decide)).mp hpow
  have hmax : d ≤ maxDigits k :=
    le_min hdigits ((Nat.le_div_iff_mul_le (Nat.pow_pos (by decide))).mpr h)
  obtain ⟨m, e, hvalue, hle⟩ := ofNat_value_le_roundUp hd hmax (min_le_left ..)
  obtain ⟨n, f, hpower, hproduct⟩ : ∃ n f, (ofNat (Nat.pow 10 k)).value = .finite false n f ∧
      roundUp (maxDigits k) * (n * 2 ^ f.toNat) < overflow * 2 ^ (-f).toNat := by
    have hfits := productFits k hk
    unfold ProductFits at hfits
    split at hfits
    · next n f heq =>
      obtain ⟨rfl, hlt⟩ := hfits
      exact ⟨n, f, heq, hlt⟩
    · exact hfits.elim
  have hfinite : ((ofNat d).mul (ofNat (Nat.pow 10 k))).isInfinite = false :=
    Binary64.mul_isInfinite hvalue hpower (product_lt hle hproduct)
  rw [scale?, if_pos (by omega), if_pos (by omega)]
  simp only [Int.natAbs_natCast, hfinite, Bool.false_eq_true, if_false, Option.isSome_some]

-- ════════════════════════════════════════════════════════════════════════
-- Shortest decimals
-- ════════════════════════════════════════════════════════════════════════

/-- Half a unit above a number below the greatest one lies within the limit. -/
theorem half_above_le_limit {m : Nat} {e : Int} (hbits : m < 2 ^ 53) (hhigh : e ≤ 971)
    (hne : ¬ (m = 2 ^ 53 - 1 ∧ e = 971)) : ((4 * m + 2 : Nat) : ℚ) * 2 ^ (e - 2) ≤ limit := by
  have hlimit : (limit : ℚ) = (2 ^ 56 - 12 : Nat) * 2 ^ (968 : Int) := by
    rw [limit, Nat.cast_mul, Nat.cast_pow, Nat.cast_ofNat, show (968 : Int) = ((968 : Nat) : Int)
      from rfl, zpow_natCast, show 970 = 2 + 968 from rfl, pow_add, ← mul_assoc]
    norm_num
  rw [hlimit]
  rcases hhigh.lt_or_eq with hlt | rfl
  · have hpow : (2 : ℚ) ^ (e - 2) ≤ 2 ^ (968 : Int) :=
      zpow_le_zpow_right₀ one_le_two (by omega)
    have hmantissa : 4 * m + 2 ≤ 2 ^ 56 - 12 := by omega
    gcongr
  · have hmantissa : (4 * m + 2) * 2 ≤ 2 ^ 56 - 12 := by
      have : m ≠ 2 ^ 53 - 1 := fun h => hne ⟨h, rfl⟩
      omega
    rw [show (971 : Int) - 2 = 968 + 1 from rfl, zpow_add_one₀ two_ne_zero, mul_comm (_ ^ _),
      ← mul_assoc]
    gcongr
    exact_mod_cast hmantissa

/-- The greatest finite number is read from its shortest decimal too, though half a unit above it is
out of range. -/
theorem scale?_greatest :
    (scale? 8 (ofNat (Shortest.decimal (2 ^ 53 - 1) 971).1)
      (Shortest.decimal (2 ^ 53 - 1) 971).2).isSome := by
  decide +kernel

/-- The shortest decimal of a finite number can be read. -/
theorem scale?_shortest {m : Nat} {e : Int} (hm : 0 < m) (hbits : m < 2 ^ 53)
    (hlow : minExponent ≤ e) (hhigh : e ≤ 971) :
    (scale? 8 (ofNat (Shortest.decimal m e).1) (Shortest.decimal m e).2).isSome := by
  by_cases hmax : m = 2 ^ 53 - 1 ∧ e = 971
  · obtain ⟨rfl, rfl⟩ := hmax
    exact scale?_greatest
  rcases Shortest.decimal_spec hm hbits hlow hhigh with hzero | ⟨hpos, hdigits, -, hle⟩
  · rw [hzero]
    decide +kernel
  generalize Shortest.decimal m e = decimal at hpos hdigits hle
  obtain ⟨d, k⟩ := decimal
  rcases lt_or_ge k 0 with hneg | hk
  · exact scale?_isSome_of_neg 8 _ hneg
  · obtain ⟨k, rfl⟩ := Int.eq_ofNat_of_zero_le hk
    refine scale?_isSome_of_le hpos hdigits ?_ 7
    have hlimit := hle.trans (half_above_le_limit hbits hhigh hmax)
    rw [zpow_natCast] at hlimit
    exact_mod_cast hlimit

end Json.NumberLiteral

end CustomFunctions
