/-!
# Binary floating point

The numbers of the IEEE 754 format binary64, by their bit patterns, with the arithmetic that number
literals and enum values need. Every operation is exact arithmetic on naturals followed by one
rounding to the nearest number, a tie going to the even mantissa.

## Main definitions

- `Binary64` — a bit pattern
- `Binary64.value` — the number that a pattern stands for
- `Binary64.ofRatio` — the number nearest to a quotient of naturals
-/

namespace CustomFunctions

/-- A number of the format binary64, given by its bit pattern. -/
structure Binary64 where
  bits : UInt64
deriving DecidableEq, Inhabited

namespace Binary64

/-- What a bit pattern stands for: `± mantissa · 2 ^ exponent`, an infinity, or no number. -/
inductive Value where
  | finite (negative : Bool) (mantissa : Nat) (exponent : Int)
  | infinite (negative : Bool)
  | nan
deriving DecidableEq

/-- The least exponent of a mantissa. -/
def minExponent : Int := -1074

/-- The pattern of positive infinity. -/
def infinityBits : Nat := 2047 * Nat.pow 2 52

/-- The number that the pattern stands for. -/
def value (x : Binary64) : Value :=
  let n := x.bits.toNat
  let negative := decide (Nat.pow 2 63 ≤ n)
  let biased := n / Nat.pow 2 52 % 2048
  let fraction := n % Nat.pow 2 52
  if biased = 2047 then
    if fraction = 0 then .infinite negative else .nan
  else if biased = 0 then .finite negative fraction minExponent
  else .finite negative (Nat.pow 2 52 + fraction) (minExponent + (biased - 1 : Nat))

/-- The pattern with the given sign and magnitude bits. -/
def ofSignMagnitude (negative : Bool) (magnitude : Nat) : Binary64 :=
  ⟨UInt64.ofNat ((if negative then Nat.pow 2 63 else 0) + magnitude)⟩

/-- The quotient rounded to a natural, a half going to the even neighbour. -/
def roundHalfEven (num den : Nat) : Nat :=
  let q := num / den
  let r := num % den
  if 2 * r < den then q
  else if den < 2 * r then q + 1
  else q + q % 2

/-- The numerator and denominator of `num / den` measured in units of `2 ^ e`. -/
def inUnits (num den : Nat) (e : Int) : Nat × Nat :=
  (num * Nat.pow 2 (-e).toNat, den * Nat.pow 2 e.toNat)

/-- The exponent at which the mantissa of `num / den` has 53 bits, or the least one. -/
def mantissaExponent (num den : Nat) : Int :=
  let low := max minExponent ((Nat.log2 num : Int) - (Nat.log2 den : Int) - 53)
  let (n, d) := inUnits num den low
  if Nat.pow 2 53 ≤ n / d then low + 1 else low

/-- The bits, sign aside, of the number nearest to `num / den`. The exponent field and the mantissa
are adjacent, so a mantissa that rounds up to the next power of two carries into the exponent. -/
def magnitudeOfRatio (num den : Nat) : Nat :=
  if num = 0 then 0
  else
    let e := mantissaExponent num den
    let (n, d) := inUnits num den e
    min infinityBits (roundHalfEven n d + (e - minExponent).toNat * Nat.pow 2 52)

/-- The number nearest to `± num / den`, for a denominator that is not zero. -/
def ofRatio (negative : Bool) (num den : Nat) : Binary64 :=
  ofSignMagnitude negative (magnitudeOfRatio num den)

/-- The number nearest to a natural. -/
def ofNat (n : Nat) : Binary64 :=
  ofRatio false n 1

/-- The number nearest to `± digits · 10 ^ exponent`. Far outside the range of the format the
answer is known without the power of ten. -/
def ofDecimal (negative : Bool) (digits : Nat) (exponent : Int) : Binary64 :=
  let order := exponent + ((Nat.toDigits 10 digits).length : Int)
  if digits = 0 then ofSignMagnitude negative 0
  else if 400 < order then ofSignMagnitude negative infinityBits
  else if order < -400 then ofSignMagnitude negative 0
  else ofRatio negative (digits * Nat.pow 10 exponent.toNat) (Nat.pow 10 (-exponent).toNat)

def zero : Binary64 := ⟨0⟩

def nan : Binary64 := ⟨0x7FF8000000000000⟩

def isInfinite (x : Binary64) : Bool :=
  match x.value with
  | .infinite _ => true
  | _ => false

def isFinite (x : Binary64) : Bool :=
  match x.value with
  | .finite _ _ _ => true
  | _ => false

/-- The number with its sign turned. -/
def neg (x : Binary64) : Binary64 :=
  ⟨x.bits ^^^ 0x8000000000000000⟩

/-- The value of a mantissa with its sign, in units of `2 ^ unit`, for `unit ≤ exponent`. -/
def scaled (negative : Bool) (mantissa : Nat) (exponent unit : Int) : Int :=
  let magnitude : Int := mantissa * Nat.pow 2 (exponent - unit).toNat
  if negative then -magnitude else magnitude

/-- The sum. Two numbers of opposite sign that cancel give the positive zero. -/
def add (x y : Binary64) : Binary64 :=
  match x.value, y.value with
  | .nan, _ => nan
  | _, .nan => nan
  | .infinite a, .infinite b => if a = b then x else nan
  | .infinite _, _ => x
  | _, .infinite _ => y
  | .finite a m e, .finite b n f =>
    let unit := min e f
    let sum := scaled a m e unit + scaled b n f unit
    if sum = 0 then ofSignMagnitude (a && b) 0
    else ofRatio (decide (sum < 0)) (sum.natAbs * Nat.pow 2 unit.toNat) (Nat.pow 2 (-unit).toNat)

/-- The product of two finite numbers of positive sign. -/
def mulMagnitude (m : Nat) (e : Int) (n : Nat) (f : Int) : Binary64 :=
  ofRatio false (m * n * Nat.pow 2 (e + f).toNat) (Nat.pow 2 (-(e + f)).toNat)

/-- The quotient of two finite numbers of positive sign, the second one not zero. -/
def divMagnitude (m : Nat) (e : Int) (n : Nat) (f : Int) : Binary64 :=
  ofRatio false (m * Nat.pow 2 (e - f).toNat) (n * Nat.pow 2 (f - e).toNat)

/-- The product of two numbers that are finite and of positive sign; `nan` for others. -/
def mul (x y : Binary64) : Binary64 :=
  match x.value, y.value with
  | .finite false m e, .finite false n f => mulMagnitude m e n f
  | _, _ => nan

/-- The quotient of two numbers that are finite and of positive sign; `nan` for others. -/
def div (x y : Binary64) : Binary64 :=
  match x.value, y.value with
  | .finite false m e, .finite false n f => divMagnitude m e n f
  | _, _ => nan

/-- The integer that the number is, if it is one. -/
def toInt? (x : Binary64) : Option Int :=
  match x.value with
  | .finite negative m e =>
    let unit := Nat.pow 2 (-e).toNat
    if m % unit = 0 then
      let magnitude : Int := (m / unit * Nat.pow 2 e.toNat : Nat)
      some (if negative then -magnitude else magnitude)
    else none
  | _ => none

end Binary64

end CustomFunctions
