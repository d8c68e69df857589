import CustomFunctions.Json.Quoted
import Mathlib.Logic.Basic

/-!
# Quoted strings read back

Escaping loses nothing: the parts that are read from a quoted text stand for the text.

## Main definitions

- `Quoted.partOf` — the part that is read for a character
- `Quoted.parts?_quote` — the parts of a quoted text
- `Quoted.decode?_partOf` — the parts stand for the text
-/

namespace CustomFunctions.Json.Quoted

/-- The part that is read for a character: only control characters without a short escape are written
as a unit. -/
def partOf (c : Char) : Part :=
  if c.toNat < 0x20 ∧ c ∉ ['\x08', '\x0c', '\n', '\r', '\t'] then .unit c.toNat else .char c

theorem hexValue?_hexDigit : ∀ n < 32, hexValue? (hexDigit (n / 16)) = some (n / 16) ∧
    hexValue? (hexDigit (n % 16)) = some (n % 16) := by
  decide

/-- An escape of four digits gives its unit. -/
theorem parts?_unit {n : Nat} (hn : n < 32) (before : List Part) (rest : List Char) :
    parts? before (['\\', 'u', '0', '0', hexDigit (n / 16), hexDigit (n % 16)] ++ rest) =
      parts? (.unit n :: before) rest := by
  obtain ⟨hhigh, hlow⟩ := hexValue?_hexDigit n hn
  have hzero : hexValue? '0' = some 0 := rfl
  have hsum : 0 * 4096 + 0 * 256 + n / 16 * 16 + n % 16 = n := by omega
  simp only [List.cons_append, List.nil_append, parts?, hhigh, hlow, hzero, hsum]

/-- A character that needs no escape stands for itself. -/
theorem parts?_plain {c : Char} (hquote : c ≠ '"') (hslash : c ≠ '\\') (hcontrol : ¬ c.toNat < 0x20)
    (before : List Part) (rest : List Char) :
    parts? before (c :: rest) = parts? (.char c :: before) rest := by
  rw [parts?]
  · rw [if_neg (by simp [hslash, hcontrol])]
  · exact hquote
  · rintro _ _ _ _ _ rfl
    exact absurd rfl hslash
  · rintro _ _ rfl
    exact absurd rfl hslash

/-- The written form of a character is read as one part. -/
theorem parts?_escape (c : Char) (before : List Part) (rest : List Char) :
    parts? before (escape c ++ rest) = parts? (partOf c :: before) rest := by
  by_cases hshort : c ∈ ['"', '\\', '\x08', '\x0c', '\n', '\r', '\t']
  · simp only [List.mem_cons, List.not_mem_nil, or_false] at hshort
    obtain rfl | rfl | rfl | rfl | rfl | rfl | rfl := hshort <;> rfl
  · simp only [List.mem_cons, List.not_mem_nil, or_false, not_or] at hshort
    obtain ⟨hquote, hslash, hb, hf, hn, hr, ht⟩ := hshort
    by_cases hcontrol : c.toNat < 0x20
    · have hpart : partOf c = .unit c.toNat := by
        simp [partOf, hcontrol, hb, hf, hn, hr, ht]
      rw [hpart, ← parts?_unit hcontrol]
      simp [escape, hquote, hslash, hb, hf, hn, hr, ht, hcontrol]
    · have hpart : partOf c = .char c := by
        simp [partOf, hcontrol]
      rw [hpart, ← parts?_plain hquote hslash hcontrol]
      simp [escape, hquote, hslash, hb, hf, hn, hr, ht, hcontrol]

/-- The parts of a quoted text, up to the closing quotation mark. -/
theorem parts?_quote (s : List Char) (before : List Part) (rest : List Char) :
    parts? before (s.flatMap escape ++ '"' :: rest) = some (before.reverse ++ s.map partOf, rest) := by
  induction s generalizing before with
  | nil => simp [parts?]
  | cons c s ih =>
    rw [List.flatMap_cons, List.append_assoc, parts?_escape, ih]
    simp

/-- A unit below the surrogates stands for a character of its own. -/
theorem decode?_unit {n : Nat} (h : n < 0xD800) (rest : List Part) :
    decode? (.unit n :: rest) = (decode? rest).map (Char.ofNat n :: ·) := by
  have hhigh : ¬ (0xD800 ≤ n ∧ n < 0xDC00) := by omega
  have hlow : ¬ (0xDC00 ≤ n ∧ n < 0xE000) := by omega
  rcases rest with _ | ⟨_ | _, rest⟩ <;> simp only [decode?, hhigh, hlow, if_false]

/-- The parts of a quoted text stand for the text. -/
theorem decode?_partOf (s : List Char) : decode? (s.map partOf) = some s := by
  induction s with
  | nil => rfl
  | cons c s ih =>
    rw [List.map_cons, partOf]
    split
    · next hcontrol =>
      rw [decode?_unit (by omega), ih, Char.ofNat_toNat]
      rfl
    · rw [decode?, ih]
      rfl

end CustomFunctions.Json.Quoted
