import CustomFunctions.Proofs.Json.NumberLiteral
import CustomFunctions.Proofs.Number.Integers
import CustomFunctions.Script.Literal
import CustomFunctions.Text.Letter

/-!
# Integer literals

An integer is written in decimal, or behind a prefix in one of three other bases, with letters in either
case and with separators between the digits. Each way of writing an integer of at most 53 bits has this
integer as its value. A prefix has no value if one of the letters and digits behind it is no digit of its
base: no other prefix fits, and the text is no decimal.

## Main definitions

- `Radix` — the bases that a prefix announces
- `WritesNat` — the texts that stand for a natural
- `numberValue?_prefixed` — a prefix is read in its base only
- `integer_literal_value` — the value of an integer literal
-/

namespace CustomFunctions

-- ════════════════════════════════════════════════════════════════════════
-- Digits in a base
-- ════════════════════════════════════════════════════════════════════════

namespace Digits

variable {base : Nat} {c : Char} {s : List Char}

theorem value?_digitChar (hbase : base ≤ 16) {d : Nat} (hd : d < base) :
    value? base (Nat.digitChar d) = some d := by
  have hall : ∀ base ≤ 16, ∀ d < base, value? base (Nat.digitChar d) = some d := by decide
  exact hall base hbase d hd

/-- What has a value is an ASCII character. -/
theorem toNat_lt_of_value? {d : Nat} (h : value? base c = some d) : c.toNat < 0x80 := by
  have hle {last : Char} (hlast : last.toNat < 0x80) (hc : c ≤ last) : c.toNat < 0x80 :=
    Nat.lt_of_le_of_lt hc hlast
  by_cases hdigit : '0' ≤ c ∧ c ≤ '9'
  · exact hle (by decide) hdigit.2
  by_cases hlower : 'a' ≤ c ∧ c ≤ 'z'
  · exact hle (by decide) hlower.2
  by_cases hupper : 'A' ≤ c ∧ c ≤ 'Z'
  · exact hle (by decide) hupper.2
  simp [value?, hdigit, hlower, hupper] at h

theorem lt_of_value? {d : Nat} (h : value? base c = some d) : d < base := by
  rw [value?] at h
  simp only [Option.ite_none_right_eq_some, Option.some.injEq] at h
  obtain ⟨hlt, rfl⟩ := h
  exact hlt

/-- In a larger base a digit has the same value. -/
theorem value?_mono {base' : Nat} (hbase : base ≤ base') {d : Nat} (h : value? base c = some d) :
    value? base' c = some d := by
  rw [value?] at h ⊢
  simp only [Option.ite_none_right_eq_some, Option.some.injEq] at h ⊢
  obtain ⟨hlt, rfl⟩ := h
  split_ifs at hlt ⊢ <;> omega

theorem value?_eq_none (hbase : base ≤ 16) (h : value? 16 c = none) : value? base c = none := by
  by_contra hne
  obtain ⟨d, hd⟩ := Option.ne_none_iff_exists'.mp hne
  rw [value?_mono hbase hd] at h
  cases h

/-- What has a value is a digit in either case. -/
theorem toLower_of_value? (hbase : base ≤ 16) {d : Nat} (h : value? base c = some d) :
    c.toLower = Nat.digitChar d := by
  have hall : ∀ n < 0x80, ∀ d ∈ value? 16 (Char.ofNat n),
      (Char.ofNat n).toLower = Nat.digitChar d := by decide +kernel
  have hc := hall c.toNat (toNat_lt_of_value? h) d
  rw [Char.ofNat_toNat] at hc
  exact hc (value?_mono hbase h)

/-- The letters behind `f` are no digits, nor is anything that is not ASCII. -/
theorem value?_ofNat {n : Nat} (h : 0x67 ≤ n) : value? 16 (Char.ofNat n) = none := by
  by_contra hne
  obtain ⟨d, hd⟩ := Option.ne_none_iff_exists'.mp hne
  have hlt := toNat_lt_of_value? hd
  by_cases hn : n < 0x80
  · have hall : ∀ n < 0x80, 0x67 ≤ n → value? 16 (Char.ofNat n) = none := by decide +kernel
    exact hne (hall n hn h)
  by_cases hvalid : n.isValidChar
  · rw [Char.ofNat, dif_pos hvalid] at hlt
    exact hn hlt
  · rw [Char.ofNat, dif_neg hvalid] at hne
    exact hne (by decide)

theorem append?_append (start : Nat) (s t : List Char) :
    append? base start (s ++ t) = (append? base start s).bind fun n => append? base n t := by
  induction s generalizing start with
  | nil => rfl
  | cons c s ih =>
    rw [List.cons_append, append?, append?]
    cases value? base c with
    | none => rfl
    | some d => exact ih _

theorem append?_zeros (hpos : 0 < base) (hbase : base ≤ 16) (count : Nat) :
    append? base 0 (List.replicate count '0') = some 0 := by
  have hzero : value? base '0' = some 0 := value?_digitChar hbase hpos
  induction count with
  | zero => rfl
  | succ count ih =>
    rw [List.replicate_succ, append?, hzero]
    simpa using ih

/-- The digits of a natural stand for it. -/
theorem append?_toDigits (hone : 1 < base) (hbase : base ≤ 16) (n : Nat) :
    append? base 0 (Nat.toDigits base n) = some n := by
  induction n using Nat.base_induction base hone with
  | single m hm =>
    rw [Nat.toDigits_of_lt_base hm, append?, value?_digitChar hbase hm]
    simp [append?]
  | digit m k hk hm ih =>
    rw [← Nat.toDigits_append_toDigits hone hm hk, append?_append, ih, Nat.toDigits_of_lt_base hk,
      Option.bind_some, append?, value?_digitChar hbase hk]
    simp [append?, Nat.mul_comm]

theorem read?_zeros_toDigits (hone : 1 < base) (hbase : base ≤ 16) (zeros n : Nat) :
    read? base (List.replicate zeros '0' ++ Nat.toDigits base n) = some n := by
  have hne : List.replicate zeros '0' ++ Nat.toDigits base n ≠ [] :=
    List.append_ne_nil_of_right_ne_nil _ Nat.toDigits_ne_nil
  rw [read?, if_neg hne, append?_append, append?_zeros (by omega) hbase, Option.bind_some,
    append?_toDigits hone hbase]

theorem read?_of_mem (hc : c ∈ s) (hvalue : value? base c = none) : read? base s = none := by
  have hall (start : Nat) : append? base start s = none := by
    induction s generalizing start with
    | nil => cases hc
    | cons d s ih =>
      rw [append?]
      rcases List.mem_cons.mp hc with rfl | hc
      · rw [hvalue]
      · cases value? base d with
        | none => rfl
        | some v => exact ih hc _
  rw [read?, hall, ite_self]

theorem exists_of_mem_toDigits (hone : 1 < base) {n : Nat} (hc : c ∈ Nat.toDigits base n) :
    ∃ d < base, c = Nat.digitChar d := by
  induction n using Nat.base_induction base hone with
  | single m hm =>
    rw [Nat.toDigits_of_lt_base hm] at hc
    exact ⟨m, hm, List.mem_singleton.mp hc⟩
  | digit m k hk hm ih =>
    rw [← Nat.toDigits_append_toDigits hone hm hk, Nat.toDigits_of_lt_base hk] at hc
    rcases List.mem_append.mp hc with hc | hc
    · exact ih hc
    · exact ⟨k, hk, List.mem_singleton.mp hc⟩

end Digits

-- ════════════════════════════════════════════════════════════════════════
-- Lower case
-- ════════════════════════════════════════════════════════════════════════

namespace Text

variable {base : Nat} {c : Char} {s t : List Char}

theorem toNat_lt_of_toLower (h : c.toLower.toNat < 0x80) : c.toNat < 0x80 := by
  unfold Char.toLower at h
  split at h
  · next hupper => exact Nat.lt_of_le_of_lt hupper.2 (by decide)
  · exact h

/-- A text whose letters become ASCII letters one by one is brought to lower case so. -/
theorem lower_of_map_toLower (h : s.map Char.toLower = t) (ht : ∀ c ∈ t, c.toNat < 0x80) :
    lower s = t := by
  have hs : ∀ c ∈ s, c.toNat < 0x80 := by
    intro c hc
    apply toNat_lt_of_toLower
    apply ht
    rw [← h]
    exact List.mem_map_of_mem hc
  rw [lower, lowerAfter_of_ascii [] hs, h]

/-- The lower-case form of a character that is not ASCII does not consist of digits alone. -/
theorem exists_caseImage (hc : 0x80 ≤ c.toNat) :
    ∃ d ∈ caseImage lowerRuns lowerExpansions c, Digits.value? 16 d = none := by
  have hexpansions : ∀ entry ∈ lowerExpansions, ∃ n ∈ entry.2, 0x67 ≤ n := by decide
  have hruns : ∀ run ∈ lowerRuns, 0x80 ≤ run.last → 0x67 ≤ run.image := by decide +kernel
  rw [caseImage]
  split
  · next image himage =>
    obtain ⟨front, back, hsplit, -⟩ := List.lookup_eq_some_iff.mp himage
    obtain ⟨n, hn, hlarge⟩ := hexpansions (c.toNat, image) (by rw [hsplit]; simp)
    exact ⟨Char.ofNat n, List.mem_map_of_mem hn, Digits.value?_ofNat hlarge⟩
  · split
    · next n hn =>
      obtain ⟨run, hrun, himage⟩ := List.exists_of_findSome?_eq_some hn
      rw [CaseRun.image?, Option.ite_none_right_eq_some] at himage
      obtain ⟨⟨-, hlast, -⟩, ⟨⟩⟩ := himage
      have hlarge := hruns run hrun (by omega)
      exact ⟨_, List.mem_singleton_self _, Digits.value?_ofNat (by omega)⟩
    · refine ⟨c, List.mem_singleton_self c, ?_⟩
      rw [← Char.ofNat_toNat c]
      exact Digits.value?_ofNat (by omega)

/-- What is no digit in either case does not become digits in lower case. -/
theorem exists_lowerAfter (hbase : base ≤ 16) (hc : c ∈ s)
    (hdigit : ∀ d < base, c.toLower ≠ Nat.digitChar d) (before : List Char) :
    ∃ d ∈ lowerAfter before s, Digits.value? base d = none := by
  induction s generalizing before with
  | nil => cases hc
  | cons e s ih =>
    rw [lowerAfter]
    rcases List.mem_cons.mp hc with rfl | hc
    · by_cases hsigma : c = 'Σ'
      · rw [if_pos hsigma]
        split
        · exact ⟨'ς', by simp, Digits.value?_eq_none hbase (by decide)⟩
        · exact ⟨'σ', by simp, Digits.value?_eq_none hbase (by decide)⟩
      rw [if_neg hsigma, lowerChar]
      by_cases hascii : c.toNat < 0x80
      · rw [if_pos hascii]
        refine ⟨c.toLower, by simp, ?_⟩
        by_contra hne
        obtain ⟨d, hd⟩ := Option.ne_none_iff_exists'.mp hne
        have hlower : c.toLower.toLower = c.toLower := by
          have hall : ∀ n < 0x80, (Char.ofNat n).toLower.toLower = (Char.ofNat n).toLower := by
            decide +kernel
          have htwice := hall c.toNat hascii
          rwa [Char.ofNat_toNat] at htwice
        apply hdigit d (Digits.lt_of_value? hd)
        rw [← hlower]
        exact Digits.toLower_of_value? hbase hd
      · rw [if_neg hascii]
        obtain ⟨d, hd, hnone⟩ := exists_caseImage (by omega : 0x80 ≤ c.toNat)
        exact ⟨d, List.mem_append_left _ hd, Digits.value?_eq_none hbase hnone⟩
    · obtain ⟨d, hd, hnone⟩ := ih hc (e :: before)
      exact ⟨d, List.mem_append_right _ hd, hnone⟩

end Text

namespace Script

-- ════════════════════════════════════════════════════════════════════════
-- Ways of writing an integer
-- ════════════════════════════════════════════════════════════════════════

/-- The bases that a prefix announces. -/
inductive Radix where
  | hexadecimal
  | octal
  | binary
deriving DecidableEq

namespace Radix

/-- The letter in the prefix. -/
def letter : Radix → Char
  | hexadecimal => 'x'
  | octal => 'o'
  | binary => 'b'

def base : Radix → Nat
  | hexadecimal => 16
  | octal => 8
  | binary => 2

/-- Is `c` a digit of the base, in either case? -/
def IsDigit (r : Radix) (c : Char) : Prop :=
  ∃ d < r.base, c.toLower = Nat.digitChar d

instance (r : Radix) (c : Char) : Decidable (r.IsDigit c) :=
  inferInstanceAs (Decidable (∃ d < r.base, c.toLower = Nat.digitChar d))

theorem base_bounds (r : Radix) : 1 < r.base ∧ r.base ≤ 16 := by
  cases r <;> decide

theorem letter_injective {r r' : Radix} (h : r.letter = r'.letter) : r = r' := by
  cases r <;> cases r' <;> first | rfl | exact absurd h (by decide)

end Radix

/-- The characters of a literal that count. -/
def withoutSeparators (text : List Char) : List Char :=
  text.filter (· ≠ '_')

/-- The text stands for the natural: separators aside, it consists of the decimal digits or, in either
case, of a prefix, any number of zeros and the digits in the base of the prefix. -/
inductive WritesNat (n : Nat) (text : List Char) : Prop
  | decimal (h : withoutSeparators text = Nat.toDigits 10 n)
  | prefixed (r : Radix) (zeros : Nat)
      (h : (withoutSeparators text).map Char.toLower =
        '0' :: r.letter :: (List.replicate zeros '0' ++ Nat.toDigits r.base n))

variable {r : Radix} {n : Nat} {c : Char} {s text digits : List Char}

-- ════════════════════════════════════════════════════════════════════════
-- Literals with a prefix
-- ════════════════════════════════════════════════════════════════════════

theorem radixValue?_prefixed (r : Radix) (digits : List Char) :
    radixValue? r.letter r.base ('0' :: r.letter :: digits) =
      (Digits.read? r.base digits).bind fun n =>
        if n < 2 ^ 64 then some (Binary64.ofNat n) else none := by
  rw [radixValue?, if_pos rfl]
  cases Digits.read? r.base digits <;> rfl

theorem radixValue?_other {r' : Radix} (h : r' ≠ r) (digits : List Char) :
    radixValue? r'.letter r'.base ('0' :: r.letter :: digits) = none :=
  if_neg fun hletter => h (Radix.letter_injective hletter).symm

theorem decimalValue?_prefixed (r : Radix) (digits : List Char) :
    decimalValue? ('0' :: r.letter :: digits) = none := by
  cases r <;> rfl

theorem numberValue?_eq (h : Text.lower (withoutSeparators text) = s) :
    numberValue? text =
      (radixValue? Radix.hexadecimal.letter Radix.hexadecimal.base s).or
        ((radixValue? Radix.octal.letter Radix.octal.base s).or
          ((radixValue? Radix.binary.letter Radix.binary.base s).or (decimalValue? s))) := by
  subst h
  rfl

/-- A prefix is read in its base only. -/
theorem numberValue?_prefixed
    (h : Text.lower (withoutSeparators text) = '0' :: r.letter :: digits) :
    numberValue? text =
      (Digits.read? r.base digits).bind fun n =>
        if n < 2 ^ 64 then some (Binary64.ofNat n) else none := by
  have hother (r' : Radix) (hne : r' ≠ r) := radixValue?_other hne digits
  rw [numberValue?_eq h, decimalValue?_prefixed, ← radixValue?_prefixed, Option.or_none]
  cases r with
  | hexadecimal =>
    rw [hother .octal (by decide), hother .binary (by decide), Option.or_none, Option.or_none]
  | octal =>
    rw [hother .hexadecimal (by decide), hother .binary (by decide), Option.or_none, Option.none_or]
  | binary =>
    rw [hother .hexadecimal (by decide), hother .octal (by decide), Option.none_or, Option.none_or]

theorem numberValue?_zeros_toDigits {zeros : Nat} (hn : n < 2 ^ 53)
    (h : (withoutSeparators text).map Char.toLower =
      '0' :: r.letter :: (List.replicate zeros '0' ++ Nat.toDigits r.base n)) :
    numberValue? text = some (Binary64.ofNat n) := by
  obtain ⟨hone, hbase⟩ := r.base_bounds
  have hdigit : ∀ d < 16, (Nat.digitChar d).toNat < 0x80 := by decide
  have hletter : r.letter.toNat < 0x80 := by cases r <;> decide
  have hlower := Text.lower_of_map_toLower h <| by
    intro c hc
    simp only [List.mem_cons, List.mem_append] at hc
    rcases hc with rfl | rfl | hc | hc
    · decide
    · exact hletter
    · rw [List.eq_of_mem_replicate hc]
      decide
    · obtain ⟨d, hd, rfl⟩ := Digits.exists_of_mem_toDigits hone hc
      exact hdigit d (by omega)
  rw [numberValue?_prefixed hlower, Digits.read?_zeros_toDigits hone hbase, Option.bind_some,
    if_pos (by omega)]

/-- A prefix with a character behind it that is no digit of the base has no value. -/
theorem numberValue?_of_not_isDigit (h : withoutSeparators text = '0' :: c :: digits)
    (hc : c.toLower = r.letter) (hdigits : ∃ d ∈ digits, ¬ r.IsDigit d) :
    numberValue? text = none := by
  obtain ⟨e, he, hnot⟩ := hdigits
  have hascii : c.toNat < 0x80 := by
    apply Text.toNat_lt_of_toLower
    rw [hc]
    cases r <;> decide
  have hsigma : c ≠ 'Σ' := by
    rintro rfl
    exact absurd hascii (by decide)
  have hlower : Text.lower (withoutSeparators text) =
      '0' :: r.letter :: Text.lowerAfter [c, '0'] digits := by
    rw [h, Text.lower, Text.lowerAfter, Text.lowerAfter, if_neg hsigma, Text.lowerChar,
      Text.lowerChar, if_pos hascii, hc]
    rfl
  obtain ⟨d, hd, hvalue⟩ := Text.exists_lowerAfter r.base_bounds.2 he
    (fun d hd heq => hnot ⟨d, hd, heq⟩) [c, '0']
  rw [numberValue?_prefixed hlower, Digits.read?_of_mem hd hvalue, Option.bind_none]

-- ════════════════════════════════════════════════════════════════════════
-- Decimal literals
-- ════════════════════════════════════════════════════════════════════════

theorem radixValue?_of_isDigit (h : ∀ c ∈ s, c.isDigit = true) (r : Radix) :
    radixValue? r.letter r.base s = none := by
  rw [radixValue?.eq_def]
  split
  · next c digits =>
    refine if_neg ?_
    rintro rfl
    have hletter := h r.letter (by simp)
    revert hletter
    cases r <;> decide
  · rfl

theorem decimalValue?_of_isDigit (hne : s ≠ []) (h : ∀ c ∈ s, c.isDigit = true) :
    decimalValue? s = some (Binary64.ofDecimal false (Digits.natOf s) 0) := by
  have htake : s.takeWhile Char.isDigit = s := List.takeWhile_eq_self_iff.mpr h
  have hdrop : s.dropWhile Char.isDigit = [] := List.dropWhile_eq_nil_iff.mpr h
  simp only [decimalValue?, htake, hdrop, List.append_nil, if_neg hne]
  rfl

/-- An integer without a point or an exponent is rounded as it is. -/
theorem ofDecimal_zero (hn : n < 2 ^ 53) : Binary64.ofDecimal false n 0 = Binary64.ofNat n := by
  have hlength : (Nat.toDigits 10 n).length ≤ 16 :=
    (Nat.length_toDigits_le_iff (by decide) (by decide)).mpr (hn.trans (by decide))
  by_cases hzero : n = 0
  · subst hzero
    rfl
  · simp only [Binary64.ofDecimal]
    rw [if_neg hzero, if_neg (by omega), if_neg (by omega)]
    exact congrArg (Binary64.ofRatio false · 1) (Nat.mul_one n)

theorem numberValue?_decimal (hn : n < 2 ^ 53) (h : withoutSeparators text = Nat.toDigits 10 n) :
    numberValue? text = some (Binary64.ofNat n) := by
  obtain ⟨hne, hdigits⟩ := Json.isDigits_decimal n
  have hlower : Text.lower (withoutSeparators text) = Nat.toDigits 10 n := by
    have hall : ∀ d < 10, (Nat.digitChar d).toLower = Nat.digitChar d ∧
        (Nat.digitChar d).toNat < 0x80 := by decide
    have hmem (c : Char) (hc : c ∈ Nat.toDigits 10 n) : c.toLower = c ∧ c.toNat < 0x80 := by
      obtain ⟨d, hd, rfl⟩ := Digits.exists_of_mem_toDigits (by decide) hc
      exact hall d hd
    refine Text.lower_of_map_toLower ?_ fun c hc => (hmem c hc).2
    rw [h, List.map_congr_left fun c hc => (hmem c hc).1, List.map_id']
  have hprefix := radixValue?_of_isDigit hdigits
  rw [Digits.decimal] at hne hdigits hprefix
  rw [numberValue?_eq hlower, hprefix, hprefix, hprefix, Option.none_or, Option.none_or,
    Option.none_or, decimalValue?_of_isDigit hne hdigits, Json.natOf_eq hdigits,
    Nat.ofDigitChars_ten_toDigits, ofDecimal_zero hn]

-- ════════════════════════════════════════════════════════════════════════
-- All literals
-- ════════════════════════════════════════════════════════════════════════

/-- However an integer of at most 53 bits is written, its literal has exactly this integer as its value.
A prefix with letters and digits behind it, of which one is no digit of its base, has no value. -/
theorem integer_literal_value :
    (∀ (n : Nat) (text : List Char), n < 2 ^ 53 → WritesNat n text →
        numberValue? text = some (Binary64.ofNat n) ∧ (Binary64.ofNat n).toInt? = some (n : Int)) ∧
      ∀ (r : Radix) (text : List Char) (c : Char) (digits : List Char),
        withoutSeparators text = '0' :: c :: digits → c.toLower = r.letter →
          (∀ d ∈ digits, Text.isLetterOrNumber d = true) → (∃ d ∈ digits, ¬ r.IsDigit d) →
            numberValue? text = none := by
  refine ⟨fun n text hn htext => ⟨?_, Binary64.toInt?_ofInt (v := n) hn⟩,
    fun r text c digits h hc _ hdigits => numberValue?_of_not_isDigit h hc hdigits⟩
  cases htext with
  | decimal h => exact numberValue?_decimal hn h
  | prefixed r zeros h => exact numberValue?_zeros_toDigits hn h

/-- A mask with a leading zero, separators and letters in both cases, and a two among binary digits. -/
theorem integer_literal_value_mask :
    WritesNat 255 "0X0_f_F".toList ∧
      numberValue? "0X0_f_F".toList = some (Binary64.ofNat 255) ∧
      (Binary64.ofNat 255).toInt? = some 255 ∧
      numberValue? "0B12".toList = none := by
  have hmask : WritesNat 255 "0X0_f_F".toList := .prefixed .hexadecimal 1 (by decide)
  obtain ⟨hvalue, hexact⟩ := integer_literal_value.1 255 _ (by decide) hmask
  have hletters : ∀ d ∈ ['1', '2'], Text.isLetterOrNumber d = true := by
    rw [List.forall_mem_cons, List.forall_mem_singleton]
    exact ⟨by decide +kernel, by decide +kernel⟩
  have hbinary : ∃ d ∈ ['1', '2'], ¬ Radix.binary.IsDigit d := ⟨'2', by decide, by decide⟩
  exact ⟨hmask, hvalue, hexact,
    integer_literal_value.2 .binary "0B12".toList 'B' ['1', '2'] (by decide) (by decide)
      hletters hbinary⟩

end Script

end CustomFunctions
