import CustomFunctions.Number.Binary64

/-!
# The shortest decimal of a binary number

A number of the format binary64 is written with the fewest decimal digits that read back as it; of
the decimals with that many digits the nearest one is taken, and a tie goes to the even digit.

The search runs over the grids of decimals with 1, 2, … digits. If a point of a grid reads back as
the number, so does one of the two neighbours of the number on that grid, so the first grid with a
hit among those two gives the fewest digits.
-/

namespace CustomFunctions.Shortest

/-- The numbers `d · 10 ^ k` and `n · 2 ^ e` as naturals in one common unit. -/
def sides (d : Nat) (k : Int) (n : Nat) (e : Int) : Nat × Nat :=
  (d * Nat.pow 10 k.toNat * Nat.pow 2 (-e).toNat, n * Nat.pow 2 e.toNat * Nat.pow 10 (-k).toNat)

/-- Does the decimal `d · 10 ^ k` round to the number `mantissa · 2 ^ exponent`? Below a power of
two the numbers lie half as far apart as above it, and the ends of the interval belong to the even
mantissa. -/
def roundsTo (mantissa : Nat) (exponent : Int) (d : Nat) (k : Int) : Bool :=
  let below := if mantissa = Nat.pow 2 52 ∧ exponent ≠ Binary64.minExponent then 1 else 2
  let (a, low) := sides d k (4 * mantissa - below) (exponent - 2)
  let (b, high) := sides d k (4 * mantissa + 2) (exponent - 2)
  if mantissa % 2 = 0 then low ≤ a && b ≤ high else low < a && b < high

/-- Is `10 ^ k` at most `mantissa · 2 ^ exponent`? -/
def reaches (k : Int) (mantissa : Nat) (exponent : Int) : Bool :=
  let (a, b) := sides 1 k mantissa exponent
  a ≤ b

/-- The power of ten of the leading digit of `mantissa · 2 ^ exponent`. -/
def order (mantissa : Nat) (exponent : Int) : Int :=
  let guess := Int.fdiv ((exponent + (Nat.log2 mantissa : Int)) * 30103) 100000
  if reaches (guess + 1) mantissa exponent then guess + 1
  else if reaches guess mantissa exponent then guess
  else guess - 1

/-- The neighbour with `digits` decimal digits that reads back as the number and is nearest to it. -/
def onGrid? (mantissa : Nat) (exponent : Int) (digits : Nat) : Option (Nat × Int) :=
  let k := order mantissa exponent - ((digits : Int) - 1)
  let num := mantissa * Nat.pow 2 exponent.toNat * Nat.pow 10 (-k).toNat
  let den := Nat.pow 2 (-exponent).toNat * Nat.pow 10 k.toNat
  let d := num / den
  let nearest := Binary64.roundHalfEven num den
  let other := if nearest = d then d + 1 else d
  if roundsTo mantissa exponent nearest k then some (nearest, k)
  else if roundsTo mantissa exponent other k then some (other, k)
  else none

/-- A decimal with the zeros at the end of its digits moved into the exponent; `fuel` bounds their
number. -/
def stripZeros : Nat → Nat → Int → Nat × Int
  | 0, d, k => (d, k)
  | fuel + 1, d, k => if d ≠ 0 ∧ d % 10 = 0 then stripZeros fuel (d / 10) (k + 1) else (d, k)

/-- The digits and the exponent of the shortest decimal of `mantissa · 2 ^ exponent`, a mantissa of
at most 53 bits that is not zero. Seventeen digits always suffice. -/
def decimal (mantissa : Nat) (exponent : Int) : Nat × Int :=
  match (List.range 17).findSome? fun i => onGrid? mantissa exponent (i + 1) with
  | some (d, k) => stripZeros 20 d k
  | none => (0, 0)

end CustomFunctions.Shortest
