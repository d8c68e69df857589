/-!
# Ranges of code points

A character class is a list of closed ranges of code points; a character belongs to the class when
one of the ranges holds its code point.
-/

namespace CustomFunctions.Text

/-- Does one of the closed ranges hold the code point of `c`? -/
def inRanges (ranges : List (Nat × Nat)) (c : Char) : Bool :=
  ranges.any fun r => r.1 ≤ c.toNat && c.toNat ≤ r.2

theorem inRanges_iff {ranges : List (Nat × Nat)} {c : Char} :
    inRanges ranges c = true ↔ ∃ r ∈ ranges, r.1 ≤ c.toNat ∧ c.toNat ≤ r.2 := by
  simp [inRanges]

end CustomFunctions.Text
