import CustomFunctions.Json.Basic
import CustomFunctions.Number.Digits
import CustomFunctions.Number.Shortest

/-!
# Numbers as JSON texts

The written form of a number, and the literals of the format with the number each one stands for.
-/

namespace CustomFunctions.Json

/-- The written form of an integer. -/
def intChars (i : Int) : List Char :=
  if i < 0 then '-' :: Digits.decimal i.natAbs else Digits.decimal i.natAbs

/-- The written form of the positive decimal `digits · 10 ^ exponent`. A number from `1e-5` to below
`1e16` is written positionally with at least one digit after the point, any other one with one
digit before the point and an exponent that shows its sign. -/
def decimalChars (digits : List Char) (exponent : Int) : List Char :=
  let order := exponent + (digits.length : Int) - 1
  if 16 ≤ order ∨ order < -5 then
    let fraction := digits.drop 1
    digits.take 1 ++ (if fraction = [] then [] else '.' :: fraction)
      ++ ['e', if order < 0 then '-' else '+'] ++ Digits.decimal order.natAbs
  else if 0 ≤ exponent then digits ++ List.replicate exponent.toNat '0' ++ ['.', '0']
  else if 0 ≤ order then
    digits.take (order.toNat + 1) ++ '.' :: digits.drop (order.toNat + 1)
  else '0' :: '.' :: (List.replicate (-order - 1).toNat '0' ++ digits)

/-- The written form of a binary number; what is no finite number is written as `null`. -/
def realChars (x : Binary64) : List Char :=
  match x.value with
  | .finite negative m e =>
    let text :=
      if m = 0 then ['0', '.', '0']
      else
        let (d, k) := Shortest.decimal m e
        decimalChars (Digits.decimal d) k
    if negative then '-' :: text else text
  | _ => "null".toList

/-- A number literal: a sign, the digits before and after the point, and the exponent. -/
structure NumberLiteral where
  negative : Bool
  integer : List Char
  fraction : Option (List Char)
  exponent : Option (Bool × List Char)
deriving DecidableEq, Inhabited

namespace NumberLiteral

/-- The greatest natural of sixty-four bits. -/
def wordMax : Nat := Nat.pow 2 64 - 1

/-- Digits taken into a word of sixty-four bits as long as they fit, and the number of digits that
did not fit. -/
def takeDigits (word : Nat) : List Char → Nat × Nat
  | [] => (word, 0)
  | c :: rest =>
    let next := word * 10 + (Digits.value? 10 c).getD 0
    if next ≤ wordMax then takeDigits next rest else (word, rest.length + 1)

/-- The word `significand` times a power of ten, by at most one multiplication or division at a time;
none if that is too large. Dividing steps beyond `10 ^ 308` are repeated, `fuel` times at most. -/
def scale? : Nat → Binary64 → Int → Option Binary64
  | 0, _, _ => some Binary64.zero
  | fuel + 1, x, exponent =>
    if exponent.natAbs ≤ 308 then
      let power := Binary64.ofNat (Nat.pow 10 exponent.natAbs)
      if 0 ≤ exponent then
        let product := x.mul power
        if product.isInfinite then none else some product
      else some (x.div power)
    else if x = Binary64.zero then some x
    else if 0 ≤ exponent then none
    else scale? fuel (x.div (Binary64.ofNat (Nat.pow 10 308))) (exponent + 308)

/-- The exponent that the digits stand for, if it fits a word of thirty-two bits. -/
def exponentValue? (digits : List Char) : Option Nat :=
  let n := Digits.natOf digits
  if n < Nat.pow 2 31 then some n else none

/-- The binary number of a literal with significand `word` and decimal exponent `shift`, before the
written exponent is added. -/
def real? (literal : NumberLiteral) (word : Nat) (shift : Int) : Option Binary64 :=
  let signed (x : Binary64) := if literal.negative then x.neg else x
  match literal.exponent with
  | none => (scale? 8 (Binary64.ofNat word) shift).map signed
  | some (negative, digits) =>
    match exponentValue? digits with
    | some e =>
      (scale? 8 (Binary64.ofNat word) (if negative then shift - e else shift + e)).map signed
    | none => if word ≠ 0 ∧ ! negative then none else some (signed Binary64.zero)

/-- The number that a literal stands for; none if it is too large. A literal without fraction and
exponent that fits sixty-four bits is an integer, except that `-0` is the negative zero. -/
def value? (literal : NumberLiteral) : Option Json :=
  let (word, dropped) := takeDigits 0 literal.integer
  match literal.fraction with
  | some fraction =>
    let (whole, unread) := takeDigits word fraction
    let shift := (dropped : Int) - ((fraction.length - unread : Nat) : Int)
    (literal.real? whole shift).map .real
  | none =>
    if literal.exponent.isNone ∧ dropped = 0 then
      if ! literal.negative then some (.int word)
      else if 0 < word ∧ word ≤ Nat.pow 2 63 then some (.int (-word))
      else some (.real (Binary64.ofNat word).neg)
    else (literal.real? word dropped).map .real

end NumberLiteral

end CustomFunctions.Json
