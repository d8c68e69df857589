/-!
# Digits

Naturals as texts of digits in a base up to sixteen, most significant digit first.
-/

namespace CustomFunctions.Digits

/-- The value of a digit, letters of either case standing for ten to thirty-five. -/
def value? (base : Nat) (c : Char) : Option Nat :=
  let v :=
    if '0' ≤ c ∧ c ≤ '9' then c.toNat - '0'.toNat
    else if 'a' ≤ c ∧ c ≤ 'z' then c.toNat - 'a'.toNat + 10
    else if 'A' ≤ c ∧ c ≤ 'Z' then c.toNat - 'A'.toNat + 10
    else base
  if v < base then some v else none

/-- The natural `start · base ^ n + d` where the `n` digits of the text stand for `d`, provided that
every character is a digit. -/
def append? (base : Nat) : Nat → List Char → Option Nat
  | start, [] => some start
  | start, c :: r =>
    match value? base c with
    | some d => append? base (start * base + d) r
    | none => none

/-- The natural that a text of one or more digits stands for. -/
def read? (base : Nat) (s : List Char) : Option Nat :=
  if s = [] then none else append? base 0 s

/-- The decimal digits of a natural. -/
def decimal (n : Nat) : List Char :=
  Nat.toDigits 10 n

/-- The natural that a text of decimal digits stands for; other characters count as zero. -/
def natOf (s : List Char) : Nat :=
  s.foldl (fun n c => n * 10 + (value? 10 c).getD 0) 0

end CustomFunctions.Digits
