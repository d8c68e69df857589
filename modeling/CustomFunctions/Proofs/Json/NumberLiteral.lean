import CustomFunctions.Json.Token
import CustomFunctions.Proofs.Json.Scaling
import CustomFunctions.Proofs.Text.Basic

/-!
# Number literals

A literal as a text and back: the tokens of a text keep a written literal as it is. The written form of
an integer is a literal that stands for the integer, and the written form of a finite binary number is
one that stands for some binary number. That need not be the same number, since reading rounds more
than once.

## Main definitions

- `NumberLiteral.IsWritten` — the literals that stand for themselves as texts
- `Token.number?_chars` — a literal is read from its text
- `intLiteral`, `realLiteral` — the literals that are written for numbers
- `value?_intLiteral`, `value?_realLiteral` — what they stand for
-/

namespace CustomFunctions.Json

-- ════════════════════════════════════════════════════════════════════════
-- Texts of digits
-- ════════════════════════════════════════════════════════════════════════

/-- A text of one or more digits. -/
def IsDigits (s : List Char) : Prop :=
  s ≠ [] ∧ ∀ c ∈ s, c.isDigit = true

theorem isDigits_decimal (n : Nat) : IsDigits (Digits.decimal n) :=
  ⟨Nat.toDigits_ne_nil, fun _ => Nat.isDigit_of_mem_toDigits (by decide) (by decide)⟩

theorem isDigits_zero : IsDigits ['0'] :=
  ⟨List.cons_ne_nil _ _, List.forall_mem_singleton.mpr rfl⟩

theorem IsDigits.append_left {s : List Char} (h : IsDigits s) {t : List Char}
    (ht : ∀ c ∈ t, c.isDigit = true) : IsDigits (s ++ t) :=
  ⟨List.append_ne_nil_of_left_ne_nil h.1 t, List.forall_mem_append.mpr ⟨h.2, ht⟩⟩

theorem IsDigits.append_right {s : List Char} (h : IsDigits s) {t : List Char}
    (ht : ∀ c ∈ t, c.isDigit = true) : IsDigits (t ++ s) :=
  ⟨List.append_ne_nil_of_right_ne_nil t h.1, List.forall_mem_append.mpr ⟨ht, h.2⟩⟩

theorem isDigit_of_mem_replicate {n : Nat} : ∀ c ∈ List.replicate n '0', c.isDigit = true := by
  intro c hc
  rw [List.eq_of_mem_replicate hc]
  rfl

/-- Only zero begins with a zero. -/
theorem head?_decimal {n : Nat} (hn : 0 < n) : (Digits.decimal n).head? ≠ some '0' := by
  rw [Digits.decimal]
  induction n using Nat.base_induction 10 (by decide) with
  | single m hm =>
    rw [Nat.toDigits_of_lt_base hm, List.head?_cons, Option.some_inj.ne, Ne, Nat.digitChar_eq_zero]
    omega
  | digit m k hk hm ih =>
    rw [← Nat.toDigits_append_toDigits (by decide) hm hk,
      List.head?_append_of_ne_nil _ Nat.toDigits_ne_nil]
    exact ih hm

theorem leading_decimal {n : Nat} (h : (Digits.decimal n).head? = some '0') :
    Digits.decimal n = ['0'] := by
  rcases Nat.eq_zero_or_pos n with rfl | hn
  · rfl
  · exact absurd h (head?_decimal hn)

theorem ofDigitChars_decimal (n : Nat) : Nat.ofDigitChars 10 (Digits.decimal n) 0 = n :=
  Nat.ofDigitChars_ten_toDigits

/-- The first digits of a number are the digits before a point. -/
theorem isDigits_take_decimal (n : Nat) {count : Nat} (hcount : 0 < count) :
    IsDigits ((Digits.decimal n).take count) := by
  obtain ⟨hne, hall⟩ := isDigits_decimal n
  refine ⟨?_, fun c hc => hall c (List.mem_of_mem_take hc)⟩
  rw [Ne, List.take_eq_nil_iff]
  exact not_or_intro hcount.ne' hne

theorem leading_take_decimal {n count : Nat} (hcount : 0 < count)
    (h : ((Digits.decimal n).take count).head? = some '0') :
    (Digits.decimal n).take count = ['0'] := by
  rw [List.head?_take, if_neg hcount.ne'] at h
  rw [leading_decimal h]
  exact List.take_of_length_le hcount

/-- The other digits are the digits behind it. -/
theorem isDigits_drop_decimal {n count : Nat} (h : (Digits.decimal n).drop count ≠ []) :
    IsDigits ((Digits.decimal n).drop count) :=
  ⟨h, fun c hc => (isDigits_decimal n).2 c (List.mem_of_mem_drop hc)⟩

theorem ofDigitChars_take_append_drop (n count : Nat) :
    Nat.ofDigitChars 10 ((Digits.decimal n).take count ++ (Digits.decimal n).drop count) 0 = n := by
  rw [List.take_append_drop, ofDigitChars_decimal]

theorem value?_of_isDigit {c : Char} (h : c.isDigit = true) :
    (Digits.value? 10 c).getD 0 = c.toNat - '0'.toNat := by
  obtain ⟨hlow, hhigh⟩ := Char.isDigit_iff_toNat.mp h
  have hrange : '0' ≤ c ∧ c ≤ '9' := ⟨hlow, hhigh⟩
  have hvalue : c.toNat - '0'.toNat < 10 := Nat.sub_lt_left_of_lt_add hlow (Nat.lt_succ_of_le hhigh)
  simp only [Digits.value?, hrange, and_self, if_true, hvalue, Option.getD_some]

theorem natOf_eq {s : List Char} (h : ∀ c ∈ s, c.isDigit = true) :
    Digits.natOf s = Nat.ofDigitChars 10 s 0 := by
  rw [Digits.natOf, Nat.ofDigitChars_eq_foldl]
  refine List.foldl_ext _ _ _ fun n c hc => ?_
  rw [value?_of_isDigit (h c hc), Nat.mul_comm]

theorem le_ofDigitChars (s : List Char) (n : Nat) : n ≤ Nat.ofDigitChars 10 s n := by
  rw [Nat.ofDigitChars_eq_ofDigitChars_zero]
  exact (Nat.le_mul_of_pos_left n (Nat.pow_pos (by decide))).trans (Nat.le_add_right _ _)

namespace NumberLiteral

/-- Digits that fit a word are taken in completely. -/
theorem takeDigits_eq {s : List Char} (h : ∀ c ∈ s, c.isDigit = true) {word : Nat}
    (hfits : Nat.ofDigitChars 10 s word ≤ wordMax) :
    takeDigits word s = (Nat.ofDigitChars 10 s word, 0) := by
  induction s generalizing word with
  | nil => rfl
  | cons c rest ih =>
    rw [List.forall_mem_cons] at h
    rw [Nat.ofDigitChars_cons] at hfits ⊢
    have hnext : word * 10 + (Digits.value? 10 c).getD 0 = 10 * word + (c.toNat - '0'.toNat) := by
      rw [value?_of_isDigit h.1, Nat.mul_comm]
    simp only [takeDigits, hnext]
    rw [if_pos ((le_ofDigitChars rest _).trans hfits)]
    exact ih h.2 hfits

end NumberLiteral

-- ════════════════════════════════════════════════════════════════════════
-- Literals as texts
-- ════════════════════════════════════════════════════════════════════════

namespace NumberLiteral

/-- The text of a fraction. -/
def fractionChars (fraction : Option (List Char)) : List Char :=
  fraction.elim [] ('.' :: ·)

/-- The text of an exponent, which shows its sign. -/
def exponentChars (exponent : Option (Bool × List Char)) : List Char :=
  exponent.elim [] fun (negative, digits) => 'e' :: (if negative then '-' else '+') :: digits

/-- The text of a literal behind its sign. -/
def unsignedChars (literal : NumberLiteral) : List Char :=
  literal.integer ++ (fractionChars literal.fraction ++ exponentChars literal.exponent)

/-- The text of a literal. -/
def chars (literal : NumberLiteral) : List Char :=
  if literal.negative then '-' :: literal.unsignedChars else literal.unsignedChars

/-- A literal as the format has them: no part of digits is empty, and only a single zero begins with a
zero. -/
structure IsWritten (literal : NumberLiteral) : Prop where
  integer : IsDigits literal.integer
  leading : literal.integer.head? = some '0' → literal.integer = ['0']
  fraction : ∀ digits ∈ literal.fraction, IsDigits digits
  exponent : ∀ e ∈ literal.exponent, IsDigits e.2

end NumberLiteral

/-- The text does not go on with a number. -/
def EndsNumber (s : List Char) : Prop :=
  ∀ c ∈ s.head?, c.isDigit = false ∧ c ≠ '.' ∧ c ≠ 'e' ∧ c ≠ 'E'

namespace Token

open NumberLiteral (fractionChars exponentChars)

theorem digits_append {s rest : List Char} (h : ∀ c ∈ s, c.isDigit = true)
    (hrest : ∀ c ∈ rest.head?, c.isDigit = false) : digits (s ++ rest) = (s, rest) := by
  obtain ⟨htake, hdrop⟩ := Text.takeWhile_dropWhile_append h hrest
  rw [digits, htake, hdrop]

theorem exponent?_chars {exponent : Option (Bool × List Char)} (h : ∀ e ∈ exponent, IsDigits e.2)
    {rest : List Char} (hrest : EndsNumber rest) :
    exponent? (exponentChars exponent ++ rest) = some (exponent, rest) := by
  cases exponent with
  | none =>
    cases rest with
    | nil => rfl
    | cons c rest =>
      obtain ⟨_, _, he, hE⟩ := hrest c rfl
      simp [exponentChars, exponent?, he, hE]
  | some e =>
    obtain ⟨negative, s⟩ := e
    obtain ⟨hne, hs⟩ := h _ rfl
    have hdigits : digits (s ++ rest) = (s, rest) :=
      digits_append hs fun c hc => (hrest c hc).1
    have hsign : exponentSign ((if negative then '-' else '+') :: (s ++ rest)) =
        (negative, s ++ rest) := by
      cases negative <;> rfl
    simp [exponentChars, exponent?, hsign, hdigits, hne]

/-- What can follow the fraction. -/
theorem exponentChars_head (exponent : Option (Bool × List Char)) {rest : List Char}
    (hrest : EndsNumber rest) :
    ∀ c ∈ (exponentChars exponent ++ rest).head?, c.isDigit = false ∧ c ≠ '.' := by
  cases exponent with
  | none => exact fun c hc => ⟨(hrest c hc).1, (hrest c hc).2.1⟩
  | some e =>
    intro c hc
    obtain rfl : 'e' = c := Option.some.inj hc
    decide

theorem fraction?_chars {fraction : Option (List Char)} (h : ∀ digits ∈ fraction, IsDigits digits)
    {rest : List Char} (hrest : ∀ c ∈ rest.head?, c.isDigit = false ∧ c ≠ '.') :
    fraction? (fractionChars fraction ++ rest) = some (fraction, rest) := by
  cases fraction with
  | none =>
    cases rest with
    | nil => rfl
    | cons c rest =>
      have hc : c ≠ '.' := (hrest c rfl).2
      simp [fractionChars, fraction?, hc]
  | some s =>
    obtain ⟨hne, hs⟩ := h _ rfl
    have hdigits : digits (s ++ rest) = (s, rest) :=
      digits_append hs fun c hc => (hrest c hc).1
    simp [fractionChars, fraction?, hdigits, hne]

/-- What can follow the integer part. -/
theorem fractionChars_head (fraction : Option (List Char)) {rest : List Char}
    (hrest : ∀ c ∈ rest.head?, c.isDigit = false ∧ c ≠ '.') :
    ∀ c ∈ (fractionChars fraction ++ rest).head?, c.isDigit = false := by
  cases fraction with
  | none => exact fun c hc => (hrest c hc).1
  | some s =>
    intro c hc
    obtain rfl : '.' = c := Option.some.inj hc
    decide

theorem integer?_append {s : List Char} (h : IsDigits s) (hleading : s.head? = some '0' → s = ['0'])
    {rest : List Char} (hrest : ∀ c ∈ rest.head?, c.isDigit = false) :
    integer? (s ++ rest) = some (s, rest) := by
  obtain ⟨hne, hs⟩ := h
  obtain ⟨c, s, rfl⟩ := List.exists_cons_of_ne_nil hne
  by_cases hc : c = '0'
  · subst hc
    rw [hleading rfl]
    rfl
  · have hdigit : c.isDigit = true := hs c List.mem_cons_self
    have hinteger : integer? ((c :: s) ++ rest) = some (digits ((c :: s) ++ rest)) := by
      rw [List.cons_append, integer?]
      · rw [if_pos hdigit]
      · exact hc
    rw [hinteger, digits_append hs hrest]

variable {literal : NumberLiteral}

theorem unsigned?_chars (h : literal.IsWritten) {rest : List Char} (hrest : EndsNumber rest) :
    unsigned? literal.negative (literal.unsignedChars ++ rest) = some (number literal, rest) := by
  have hexponent := exponentChars_head literal.exponent hrest
  have hfraction := fractionChars_head literal.fraction hexponent
  rw [NumberLiteral.unsignedChars, List.append_assoc, List.append_assoc, unsigned?,
    integer?_append h.integer h.leading hfraction]
  simp only [Option.bind_eq_bind, Option.bind_some, fraction?_chars h.fraction hexponent,
    exponent?_chars h.exponent hrest]
  rfl

theorem head_unsignedChars (h : literal.IsWritten) :
    ∃ c rest, literal.unsignedChars = c :: rest ∧ c.isDigit = true := by
  obtain ⟨c, s, hs⟩ := List.exists_cons_of_ne_nil h.integer.1
  refine ⟨c, _, by rw [NumberLiteral.unsignedChars, hs, List.cons_append], h.integer.2 c ?_⟩
  rw [hs]
  exact List.mem_cons_self

/-- A literal is read from its text. -/
theorem number?_chars (h : literal.IsWritten) {rest : List Char} (hrest : EndsNumber rest) :
    number? (literal.chars ++ rest) = some (number literal, rest) := by
  have hunsigned := unsigned?_chars h hrest
  rw [NumberLiteral.chars]
  cases hsign : literal.negative with
  | true =>
    rw [hsign] at hunsigned
    exact hunsigned
  | false =>
    rw [hsign] at hunsigned
    obtain ⟨c, s, hs, hc⟩ := head_unsignedChars h
    simp only [Bool.false_eq_true, if_false]
    rw [hs, List.cons_append] at hunsigned ⊢
    rw [number?]
    · exact hunsigned
    · rintro _ ⟨⟩
      exact absurd hc (by decide)

end Token

-- ════════════════════════════════════════════════════════════════════════
-- Integers
-- ════════════════════════════════════════════════════════════════════════

/-- The literal that is written for an integer. -/
def intLiteral (i : Int) : NumberLiteral where
  negative := decide (i < 0)
  integer := Digits.decimal i.natAbs
  fraction := none
  exponent := none

theorem intLiteral_isWritten (i : Int) : (intLiteral i).IsWritten where
  integer := isDigits_decimal _
  leading := leading_decimal
  fraction := nofun
  exponent := nofun

theorem chars_intLiteral (i : Int) : (intLiteral i).chars = intChars i := by
  simp [NumberLiteral.chars, NumberLiteral.unsignedChars, intLiteral, intChars,
    NumberLiteral.fractionChars, NumberLiteral.exponentChars]

/-- An integer of sixty-four bits is read as itself. -/
theorem value?_intLiteral {i : Int} (h : i.natAbs ≤ 2 ^ 63) :
    (intLiteral i).value? = some (.int i) := by
  have hfits : Nat.ofDigitChars 10 (Digits.decimal i.natAbs) 0 ≤ NumberLiteral.wordMax := by
    rw [ofDigitChars_decimal]
    exact h.trans (by decide)
  have htake := NumberLiteral.takeDigits_eq (isDigits_decimal i.natAbs).2 hfits
  rw [ofDigitChars_decimal] at htake
  simp only [NumberLiteral.value?, intLiteral, htake, Option.isNone_none, and_self, if_true]
  by_cases hi : i < 0
  · have hword : 0 < i.natAbs ∧ i.natAbs ≤ Nat.pow 2 63 := ⟨by omega, h⟩
    simp only [hi, decide_true, Bool.not_true, Bool.false_eq_true, if_false, hword, and_self,
      if_true]
    congr 2
    omega
  · simp only [hi, decide_false, Bool.not_false, if_true]
    congr 2
    omega

-- ════════════════════════════════════════════════════════════════════════
-- Binary numbers
-- ════════════════════════════════════════════════════════════════════════

namespace NumberLiteral

/-- The natural that all digits of a literal stand for, the point left aside. -/
def significand (literal : NumberLiteral) : Nat :=
  Nat.ofDigitChars 10 (literal.integer ++ literal.fraction.getD []) 0

/-- The exponent that stands written. -/
def writtenExponent (literal : NumberLiteral) : Int :=
  literal.exponent.elim 0 fun (negative, digits) =>
    if negative then -(Nat.ofDigitChars 10 digits 0 : Int) else Nat.ofDigitChars 10 digits 0

/-- The exponent that goes with the significand. -/
def shift (literal : NumberLiteral) : Int :=
  literal.writtenExponent - (literal.fraction.getD []).length

/-- A literal with a point or an exponent whose digits fit a word and whose number can be had by
scaling. -/
structure IsReal (literal : NumberLiteral) : Prop where
  written : literal.IsWritten
  real : literal.fraction.isSome ∨ literal.exponent.isSome
  fits : literal.significand ≤ wordMax
  small : ∀ e ∈ literal.exponent, Nat.ofDigitChars 10 e.2 0 < 2 ^ 31
  scales : (scale? 8 (Binary64.ofNat literal.significand) literal.shift).isSome

variable {literal : NumberLiteral}

/-- The digits of a literal are taken in completely. -/
theorem value?_eq (h : literal.IsReal) :
    literal.value? =
      (literal.real? literal.significand (-(literal.fraction.getD []).length)).map .real := by
  obtain ⟨hwritten, hreal, hfits, _⟩ := h
  rw [significand, Nat.ofDigitChars_append] at hfits
  have hinteger := takeDigits_eq hwritten.integer.2 ((le_ofDigitChars _ _).trans hfits)
  cases hfraction : literal.fraction with
  | none =>
    have hexponent : literal.exponent.isNone = false := by
      rw [hfraction] at hreal
      simpa using hreal
    simp only [value?, hfraction, hinteger, hexponent, significand, Option.getD_none,
      List.append_nil, Bool.false_eq_true, false_and, if_false, List.length_nil]
    rfl
  | some s =>
    rw [hfraction, Option.getD_some] at hfits
    have htake := takeDigits_eq (hwritten.fraction s hfraction).2 hfits
    simp only [value?, hfraction, hinteger, htake, significand, Option.getD_some,
      Nat.ofDigitChars_append, Nat.sub_zero, Int.natCast_zero, Int.zero_sub]

/-- Such a literal stands for some binary number. -/
theorem exists_value? (h : literal.IsReal) : ∃ x, literal.value? = some (.real x) := by
  have hreal : (literal.real? literal.significand (-(literal.fraction.getD []).length)).isSome := by
    have hscales := h.scales
    rw [shift, writtenExponent] at hscales
    rw [real?]
    cases hexponent : literal.exponent with
    | none =>
      rw [hexponent, Option.elim_none, Int.zero_sub] at hscales
      simpa using hscales
    | some e =>
      obtain ⟨negative, digits⟩ := e
      have hdigits : Digits.natOf digits = Nat.ofDigitChars 10 digits 0 :=
        natOf_eq (h.written.exponent _ hexponent).2
      rw [hexponent, Option.elim_some] at hscales
      have hvalue : exponentValue? digits = some (Nat.ofDigitChars 10 digits 0) := by
        rw [exponentValue?, hdigits]
        exact if_pos (h.small _ hexponent)
      simp only [hvalue, Option.isSome_map]
      cases negative
      · simpa [Int.sub_eq_add_neg, Int.add_comm] using hscales
      · simpa [Int.sub_eq_add_neg, Int.add_comm] using hscales
  obtain ⟨x, hx⟩ := Option.isSome_iff_exists.mp hreal
  exact ⟨x, by rw [value?_eq h, hx, Option.map_some]⟩

end NumberLiteral

/-- The literal that is written for the decimal `± digits · 10 ^ exponent`. -/
def decimalLiteral (negative : Bool) (digits : List Char) (exponent : Int) : NumberLiteral :=
  let order := exponent + (digits.length : Int) - 1
  if 16 ≤ order ∨ order < -5 then
    { negative
      integer := digits.take 1
      fraction := if digits.drop 1 = [] then none else some (digits.drop 1)
      exponent := some (decide (order < 0), Digits.decimal order.natAbs) }
  else if 0 ≤ exponent then
    { negative
      integer := digits ++ List.replicate exponent.toNat '0'
      fraction := some ['0']
      exponent := none }
  else if 0 ≤ order then
    { negative
      integer := digits.take (order.toNat + 1)
      fraction := some (digits.drop (order.toNat + 1))
      exponent := none }
  else
    { negative
      integer := ['0']
      fraction := some (List.replicate (-order - 1).toNat '0' ++ digits)
      exponent := none }

theorem chars_decimalLiteral (negative : Bool) (digits : List Char) (exponent : Int) :
    (decimalLiteral negative digits exponent).chars =
      if negative then '-' :: decimalChars digits exponent else decimalChars digits exponent := by
  have hunsigned : (decimalLiteral negative digits exponent).unsignedChars =
      decimalChars digits exponent := by
    simp only [decimalLiteral, decimalChars]
    split
    · generalize digits.drop 1 = fraction
      by_cases hfraction : fraction = [] <;>
        simp [NumberLiteral.unsignedChars, NumberLiteral.fractionChars,
          NumberLiteral.exponentChars, hfraction]
    · split
      · simp [NumberLiteral.unsignedChars, NumberLiteral.fractionChars,
          NumberLiteral.exponentChars]
      · split <;>
          simp [NumberLiteral.unsignedChars, NumberLiteral.fractionChars,
            NumberLiteral.exponentChars]
  have hnegative : (decimalLiteral negative digits exponent).negative = negative := by
    simp only [decimalLiteral]
    split
    · rfl
    · split
      · rfl
      · split <;> rfl
  rw [NumberLiteral.chars, hunsigned, hnegative]

section

variable {d : Nat} {k : Int}

theorem le_wordMax (h : d ≤ 10 ^ 17) : d ≤ NumberLiteral.wordMax :=
  h.trans (by decide)

theorem length_decimal_le (h : d ≤ 10 ^ 17) : (Digits.decimal d).length ≤ 18 :=
  (Nat.length_toDigits_le_iff (by decide) (by decide)).mpr (h.trans_lt (by decide))

/-- The form with one digit before the point and an exponent. -/
theorem isReal_exponentForm (negative : Bool) (hdigits : d ≤ 10 ^ 17) (hk : k.natAbs ≤ 400)
    (hscales : (NumberLiteral.scale? 8 (Binary64.ofNat d) k).isSome) {order : Int}
    (horder : order = k + ((Digits.decimal d).length : Int) - 1) :
    NumberLiteral.IsReal
      { negative
        integer := (Digits.decimal d).take 1
        fraction := if (Digits.decimal d).drop 1 = [] then none else some ((Digits.decimal d).drop 1)
        exponent := some (decide (order < 0), Digits.decimal order.natAbs) } := by
  have hlength := length_decimal_le hdigits
  have hfraction : (if (Digits.decimal d).drop 1 = [] then none
      else some ((Digits.decimal d).drop 1)).getD [] = (Digits.decimal d).drop 1 := by
    split
    · next h => rw [h, Option.getD_none]
    · rfl
  have hsignificand := ofDigitChars_take_append_drop d 1
  have hpos := List.length_pos_iff.mpr (isDigits_decimal d).1
  have hshift : (if order < 0 then -(order.natAbs : Int) else order.natAbs)
      - ((Digits.decimal d).drop 1).length = k := by
    rw [List.length_drop]
    split <;> omega
  refine ⟨⟨isDigits_take_decimal d Nat.one_pos, leading_take_decimal Nat.one_pos, ?_, ?_⟩, .inr rfl,
    ?_, ?_, ?_⟩
  · intro s hs
    obtain ⟨hdrop, heq⟩ := Option.ite_none_left_eq_some.mp hs
    rw [← Option.some.inj heq]
    exact isDigits_drop_decimal hdrop
  · rintro _ ⟨⟩
    exact isDigits_decimal _
  · simp only [NumberLiteral.significand, hfraction, hsignificand]
    exact le_wordMax hdigits
  · rintro _ ⟨⟩
    rw [ofDigitChars_decimal]
    omega
  · simp only [NumberLiteral.significand, NumberLiteral.shift, NumberLiteral.writtenExponent,
      hfraction, hsignificand, Option.elim_some, ofDigitChars_decimal, decide_eq_true_eq, hshift]
    exact hscales

/-- The form of a whole number, with a zero behind the point. -/
theorem isReal_wholeForm (negative : Bool) (hzero : d = 0 → k = 0) (hk : 0 ≤ k)
    (horder : k + ((Digits.decimal d).length : Int) ≤ 16) :
    NumberLiteral.IsReal
      { negative
        integer := Digits.decimal d ++ List.replicate k.toNat '0'
        fraction := some ['0']
        exponent := none } := by
  have hlength : 0 < (Digits.decimal d).length := Nat.length_toDigits_pos
  have hlt : d < 10 ^ (Digits.decimal d).length :=
    (Nat.length_toDigits_le_iff (by decide) hlength).mp le_rfl
  have hsignificand : Nat.ofDigitChars 10
      (Digits.decimal d ++ List.replicate k.toNat '0' ++ ['0']) 0 = 10 ^ (k.toNat + 1) * d := by
    rw [List.append_assoc, ← List.replicate_succ', Nat.ofDigitChars_append, ofDigitChars_decimal,
      Nat.ofDigitChars_replicate_zero]
  refine ⟨⟨?_, ?_, ?_, nofun⟩, .inl rfl, ?_, nofun, ?_⟩
  · exact (isDigits_decimal d).append_left isDigit_of_mem_replicate
  · intro hhead
    rw [List.head?_append_of_ne_nil _ (isDigits_decimal d).1] at hhead
    have hd : d = 0 := by
      by_contra hne
      exact head?_decimal (Nat.pos_of_ne_zero hne) hhead
    rw [hd, hzero hd]
    rfl
  · rintro _ ⟨⟩
    exact isDigits_zero
  · simp only [NumberLiteral.significand, Option.getD_some, hsignificand]
    refine le_wordMax ?_
    calc 10 ^ (k.toNat + 1) * d ≤ 10 ^ (k.toNat + 1) * 10 ^ (Digits.decimal d).length := by gcongr
      _ = 10 ^ (k.toNat + 1 + (Digits.decimal d).length) := (pow_add ..).symm
      _ ≤ 10 ^ 17 := Nat.pow_le_pow_right (by decide) (by omega)
  · exact NumberLiteral.scale?_isSome_of_neg 8 _ (show (0 - 1 : Int) < 0 by decide)

/-- The form with the point between the digits. -/
theorem isReal_pointForm (negative : Bool) (hdigits : d ≤ 10 ^ 17)
    (hscales : (NumberLiteral.scale? 8 (Binary64.ofNat d) k).isSome) {whole : Nat}
    (hwhole : (whole : Int) = k + ((Digits.decimal d).length : Int)) (hk : k < 0)
    (hpos : 0 < whole) :
    NumberLiteral.IsReal
      { negative
        integer := (Digits.decimal d).take whole
        fraction := some ((Digits.decimal d).drop whole)
        exponent := none } := by
  have hsignificand := ofDigitChars_take_append_drop d whole
  have hshift : (0 : Int) - ((Digits.decimal d).drop whole).length = k := by
    rw [List.length_drop]
    omega
  refine ⟨⟨isDigits_take_decimal d hpos, leading_take_decimal hpos, ?_, nofun⟩, .inl rfl, ?_, nofun,
    ?_⟩
  · rintro _ ⟨⟩
    refine isDigits_drop_decimal ?_
    rw [← List.length_pos_iff, List.length_drop]
    omega
  · simp only [NumberLiteral.significand, Option.getD_some, hsignificand]
    exact le_wordMax hdigits
  · simp only [NumberLiteral.significand, NumberLiteral.shift, NumberLiteral.writtenExponent,
      Option.getD_some, Option.elim_none, hsignificand, hshift]
    exact hscales

/-- The form of a number below one, with zeros behind the point. -/
theorem isReal_smallForm (negative : Bool) (hdigits : d ≤ 10 ^ 17) (zeros : Nat) :
    NumberLiteral.IsReal
      { negative
        integer := ['0']
        fraction := some (List.replicate zeros '0' ++ Digits.decimal d)
        exponent := none } := by
  have hfraction : IsDigits (List.replicate zeros '0' ++ Digits.decimal d) :=
    (isDigits_decimal d).append_right isDigit_of_mem_replicate
  have hsignificand : Nat.ofDigitChars 10
      (['0'] ++ (List.replicate zeros '0' ++ Digits.decimal d)) 0 = d := by
    rw [← List.append_assoc, ← List.replicate_one, List.replicate_append_replicate,
      Nat.ofDigitChars_append, Nat.ofDigitChars_replicate_zero, Nat.mul_zero, ofDigitChars_decimal]
  refine ⟨⟨isDigits_zero, fun _ => rfl, ?_, nofun⟩, .inl rfl, ?_, nofun, ?_⟩
  · rintro _ ⟨⟩
    exact hfraction
  · simp only [NumberLiteral.significand, Option.getD_some, hsignificand]
    exact le_wordMax hdigits
  · refine NumberLiteral.scale?_isSome_of_neg 8 _ ?_
    have hpos := List.length_pos_iff.mpr hfraction.1
    simp only [NumberLiteral.shift, NumberLiteral.writtenExponent, Option.getD_some,
      Option.elim_none]
    omega

/-- The literal of a decimal stands for a number if the decimal can be scaled. -/
theorem isReal_decimalLiteral (negative : Bool) (hdigits : d ≤ 10 ^ 17) (hk : k.natAbs ≤ 400)
    (hzero : d = 0 → k = 0) (hscales : (NumberLiteral.scale? 8 (Binary64.ofNat d) k).isSome) :
    (decimalLiteral negative (Digits.decimal d) k).IsReal := by
  simp only [decimalLiteral]
  split
  · exact isReal_exponentForm negative hdigits hk hscales rfl
  · next horder =>
    split
    · next hwhole => exact isReal_wholeForm negative hzero hwhole (by omega)
    · split
      · exact isReal_pointForm negative hdigits hscales (by omega) (by omega) (Nat.succ_pos _)
      · exact isReal_smallForm negative hdigits _

end

/-- The literal that is written for a finite binary number. -/
def realLiteral (x : Binary64) : NumberLiteral :=
  match x.value with
  | .finite negative m e =>
    if m = 0 then { negative, integer := ['0'], fraction := some ['0'], exponent := none }
    else
      let (d, k) := Shortest.decimal m e
      decimalLiteral negative (Digits.decimal d) k
  | _ => default

theorem chars_realLiteral {x : Binary64} (h : x.isFinite = true) :
    (realLiteral x).chars = realChars x := by
  rw [Binary64.isFinite] at h
  cases hvalue : x.value with
  | finite negative m e =>
    simp only [realLiteral, realChars, hvalue]
    split
    · rfl
    · rw [chars_decimalLiteral]
  | _ => simp [hvalue] at h

/-- The literal of a finite number stands for a number. -/
theorem isReal_realLiteral {x : Binary64} (h : x.isFinite = true) : (realLiteral x).IsReal := by
  rw [Binary64.isFinite] at h
  cases hvalue : x.value with
  | finite negative m e =>
    simp only [realLiteral, hvalue]
    split
    · exact isReal_wholeForm (d := 0) (k := 0) negative (fun _ => rfl) le_rfl (by decide)
    · next hm =>
      obtain ⟨hbits, hlow, hhigh⟩ := Binary64.bounds_of_value hvalue
      have hscales := NumberLiteral.scale?_shortest (Nat.pos_of_ne_zero hm) hbits hlow hhigh
      rcases Shortest.decimal_spec (Nat.pos_of_ne_zero hm) hbits hlow hhigh with
        hzero | ⟨hpos, hdigits, hk, _⟩
      · rw [hzero] at hscales ⊢
        exact isReal_decimalLiteral negative (by decide) (by decide) (fun _ => rfl) hscales
      · exact isReal_decimalLiteral negative hdigits hk (fun hd => absurd hd hpos.ne') hscales
  | _ => simp [hvalue] at h

end CustomFunctions.Json
