import CustomFunctions.Json.Reader
import CustomFunctions.Json.Writer
import CustomFunctions.Proofs.Json.NumberLiteral
import CustomFunctions.Proofs.Json.Quoted
import Mathlib.Data.List.Forall2

/-!
# Scanning the indented form

The indented form of a value is scanned into the tokens of the value as it is written, blanks aside.

## Main definitions

- `Json.raw` — a value as it is written
- `Raw.tokens` — the tokens of a written value
- `Json.IsWritable` — the values whose binary numbers are written as numbers
- `Json.IsReadable` — the values within the limits of the format
- `Token.scansAs_prettyChars` — the tokens of the indented form
-/

namespace CustomFunctions.Json

-- ════════════════════════════════════════════════════════════════════════
-- Values as they are written
-- ════════════════════════════════════════════════════════════════════════

mutual

/-- The value as it is written. -/
def raw : Json → Raw
  | .null => .null
  | .bool b => .bool b
  | .int i => .number (intLiteral i)
  | .real x => .number (realLiteral x)
  | .string s => .string (s.toList.map Quoted.partOf)
  | .array items => .array (rawItems items)
  | .object fields => .object (rawFields fields)

/-- The items of an array as they are written. -/
def rawItems : List Json → List Raw
  | [] => []
  | v :: rest => raw v :: rawItems rest

/-- The fields of an object as they are written. -/
def rawFields : List (String × Json) → List (List Quoted.Part × Raw)
  | [] => []
  | (k, v) :: rest => (k.toList.map Quoted.partOf, raw v) :: rawFields rest

end

mutual

/-- The tokens of a written value. -/
def Raw.tokens : Raw → List Token
  | .null => [.null]
  | .bool b => [.bool b]
  | .number literal => [.number literal]
  | .string parts => [.string parts]
  | .array items =>
    .openBracket :: (List.intercalate [.comma] (Raw.itemTokens items) ++ [.closeBracket])
  | .object fields =>
    .openBrace :: (List.intercalate [.comma] (Raw.fieldTokens fields) ++ [.closeBrace])

/-- The tokens of the items of an array, item by item. -/
def Raw.itemTokens : List Raw → List (List Token)
  | [] => []
  | v :: rest => Raw.tokens v :: Raw.itemTokens rest

/-- The tokens of the fields of an object, field by field. -/
def Raw.fieldTokens : List (List Quoted.Part × Raw) → List (List Token)
  | [] => []
  | (k, v) :: rest => (.string k :: .colon :: Raw.tokens v) :: Raw.fieldTokens rest

end

/-- The binary numbers of the value are finite, so that they are written as numbers. -/
inductive IsWritable : Json → Prop
  | null : IsWritable .null
  | bool (b : Bool) : IsWritable (.bool b)
  | int (i : Int) : IsWritable (.int i)
  | real {x : Binary64} (h : x.isFinite = true) : IsWritable (.real x)
  | string (s : String) : IsWritable (.string s)
  | array {items : List Json} (h : ∀ v ∈ items, IsWritable v) : IsWritable (.array items)
  | object {fields : List (String × Json)} (h : ∀ f ∈ fields, IsWritable f.2) :
      IsWritable (.object fields)

/-- The value can be written and read within the limits of the format: its integers have sixty-four
bits, its other numbers are finite, and it has at most the given number of levels. -/
inductive IsReadable : Nat → Json → Prop
  | null {depth : Nat} : IsReadable depth .null
  | bool {depth : Nat} (b : Bool) : IsReadable depth (.bool b)
  | int {depth : Nat} {i : Int} (h : i.natAbs ≤ 2 ^ 63) : IsReadable depth (.int i)
  | real {depth : Nat} {x : Binary64} (h : x.isFinite = true) : IsReadable depth (.real x)
  | string {depth : Nat} (s : String) : IsReadable depth (.string s)
  | array {depth : Nat} {items : List Json} (h : ∀ v ∈ items, IsReadable depth v) :
      IsReadable (depth + 1) (.array items)
  | object {depth : Nat} {fields : List (String × Json)} (h : ∀ f ∈ fields, IsReadable depth f.2) :
      IsReadable (depth + 1) (.object fields)

theorem IsReadable.isWritable {depth : Nat} {v : Json} (h : v.IsReadable depth) : v.IsWritable := by
  induction h with
  | null => exact .null
  | bool b => exact .bool b
  | int _ => exact .int _
  | real hfinite => exact .real hfinite
  | string s => exact .string s
  | array _ ih => exact .array ih
  | object _ ih => exact .object ih

-- ════════════════════════════════════════════════════════════════════════
-- Scanning a part of a text
-- ════════════════════════════════════════════════════════════════════════

namespace Token

theorem scan?_space {c : Char} (h : isSpace c = true) (s : List Char) :
    scan? (c :: s) = scan? s := by
  rw [scan?, if_pos h]

theorem scan?_spaces {spaces : List Char} (h : ∀ c ∈ spaces, isSpace c = true) (s : List Char) :
    scan? (spaces ++ s) = scan? s := by
  induction spaces with
  | nil => rfl
  | cons c rest ih =>
    rw [List.forall_mem_cons] at h
    rw [List.cons_append, scan?_space h.1, ih h.2]

theorem scan?_token {c : Char} {s rest : List Char} {t : Token} (hspace : isSpace c = false)
    (h : next? (c :: s) = some (t, rest)) : scan? (c :: s) = (scan? rest).map (t :: ·) := by
  rw [scan?, hspace]
  simp only [Bool.false_eq_true, if_false]
  split
  · next heq =>
    rw [h] at heq
    obtain ⟨rfl, rfl⟩ := Prod.mk.inj (Option.some.inj heq)
    rfl
  · next heq =>
    rw [h] at heq
    cases heq

/-- The part of a text is scanned into the tokens, whatever stands behind it, unless a number goes on
there. -/
def ScansAs (s : List Char) (tokens : List Token) : Prop :=
  ∀ rest, EndsNumber rest → scan? (s ++ rest) = (scan? rest).map (tokens ++ ·)

theorem ScansAs.append {s s' : List Char} {tokens tokens' : List Token} (h : ScansAs s tokens)
    (h' : ScansAs s' tokens') (hends : ∀ rest, EndsNumber (s' ++ rest)) :
    ScansAs (s ++ s') (tokens ++ tokens') := by
  intro rest hrest
  rw [List.append_assoc, h _ (hends rest), h' rest hrest, Option.map_map]
  congr 1
  funext found
  exact (List.append_assoc ..).symm

/-- A text that begins with a character that is no part of a number. -/
theorem endsNumber_cons {c : Char} (h : c.isDigit = false ∧ c ≠ '.' ∧ c ≠ 'e' ∧ c ≠ 'E')
    (s : List Char) : EndsNumber (c :: s) := by
  intro c' hc'
  rwa [← Option.some.inj hc']

theorem scansAs_nil : ScansAs [] [] := by
  intro rest _
  simp

/-- Blanks do not count. -/
theorem ScansAs.behindSpaces {spaces s : List Char} {tokens : List Token} (h : ScansAs s tokens)
    (hspaces : ∀ c ∈ spaces, isSpace c = true) : ScansAs (spaces ++ s) tokens := by
  intro rest hrest
  rw [List.append_assoc, scan?_spaces hspaces, h rest hrest]

theorem ScansAs.cons {c : Char} {s : List Char} {t : Token} {tokens : List Token}
    (hspace : isSpace c = false) (hnext : ∀ s, next? (c :: s) = some (t, s))
    (h : ScansAs s tokens) : ScansAs (c :: s) (t :: tokens) := by
  intro rest hrest
  rw [List.cons_append, scan?_token hspace (hnext _), h rest hrest, Option.map_map]
  rfl

/-! ### Single tokens -/

theorem scansAs_quote (s : List Char) :
    ScansAs (Quoted.quote s) [.string (s.map Quoted.partOf)] := by
  intro rest _
  rw [Quoted.quote, List.cons_append, List.append_assoc]
  refine scan?_token rfl ?_
  simp only [next?, List.cons_append, List.nil_append, Quoted.parts?_quote]
  rfl

/-- Which characters a number can begin with. -/
theorem next?_eq_number? {c : Char} (h : c = '-' ∨ c.isDigit = true) (s : List Char) :
    next? (c :: s) = number? (c :: s) := by
  have hne : ∀ d ∈ ['{', '}', '[', ']', ',', ':', '"', 'n', 't', 'f'], c ≠ d := by
    rintro d hd rfl
    revert hd
    rcases h with rfl | h
    · decide
    · intro hd
      simp only [List.mem_cons, List.not_mem_nil, or_false] at hd
      rcases hd with rfl | rfl | rfl | rfl | rfl | rfl | rfl | rfl | rfl | rfl <;>
        exact absurd h (by decide)
  simp only [List.forall_mem_cons, List.not_mem_nil, false_implies, implies_true, and_true] at hne
  obtain ⟨h₁, h₂, h₃, h₄, h₅, h₆, h₇, h₈, h₉, h₁₀⟩ := hne
  rw [next?] <;> simp_all

theorem scansAs_chars {literal : NumberLiteral} (h : literal.IsWritten) :
    ScansAs literal.chars [.number literal] := by
  intro rest hrest
  have hnumber := number?_chars h hrest
  obtain ⟨c, s, hs, hc⟩ : ∃ c s, literal.chars = c :: s ∧ (c = '-' ∨ c.isDigit = true) := by
    obtain ⟨c, s, hs, hc⟩ := head_unsignedChars h
    rw [NumberLiteral.chars, hs]
    cases literal.negative
    · exact ⟨c, s, rfl, .inr hc⟩
    · exact ⟨'-', c :: s, rfl, .inl rfl⟩
  rw [hs, List.cons_append] at hnumber ⊢
  have hspace : isSpace c = false := by
    rcases hc with rfl | hc
    · rfl
    · by_contra hspace
      simp only [isSpace, Bool.or_eq_true, decide_eq_true_eq, Bool.not_eq_false] at hspace
      rcases hspace with ((rfl | rfl) | rfl) | rfl <;> exact absurd hc (by decide)
  exact scan?_token hspace ((next?_eq_number? hc _).trans hnumber)

/-! ### Values of several tokens -/

theorem isSpace_of_mem_newLine (level : Nat) : ∀ c ∈ newLine level, isSpace c = true := by
  rw [newLine, List.forall_mem_cons]
  refine ⟨rfl, fun c hc => ?_⟩
  rw [List.eq_of_mem_replicate hc]
  rfl

/-- Items on lines of their own, with commas between them. -/
theorem scansAs_lines (level : Nat) {items : List (List Char)} {tokens : List (List Token)}
    (h : List.Forall₂ ScansAs items tokens) :
    ScansAs (List.intercalate [','] (items.map (newLine level ++ ·)))
      (List.intercalate [.comma] tokens) := by
  induction h with
  | nil => exact scansAs_nil
  | @cons item itemTokens rest restTokens hitem hrest ih =>
    have hline := hitem.behindSpaces (isSpace_of_mem_newLine level)
    cases hrest with
    | nil => simpa [List.intercalate_singleton] using hline
    | cons _ _ =>
      rw [List.map_cons, List.map_cons, List.intercalate_cons_cons, List.intercalate_cons_cons,
        List.append_assoc (newLine level ++ item), List.append_assoc itemTokens]
      exact hline.append (ScansAs.cons (c := ',') rfl (fun _ => rfl) ih)
        fun _ => endsNumber_cons (by decide) _

/-- Items between their brackets. -/
theorem scansAs_block (level : Nat) {opening closing : Char} {first last : Token}
    (hopening : isSpace opening = false ∧ ∀ s, next? (opening :: s) = some (first, s))
    (hclosing : isSpace closing = false ∧ ∀ s, next? (closing :: s) = some (last, s))
    {items : List (List Char)} {tokens : List (List Token)}
    (h : List.Forall₂ ScansAs items tokens) :
    ScansAs (block level opening closing items)
      (first :: (List.intercalate [.comma] tokens ++ [last])) := by
  have hlast : ScansAs [closing] [last] := .cons hclosing.1 hclosing.2 scansAs_nil
  rw [block]
  split
  · next hnil =>
    subst hnil
    cases h
    exact .cons hopening.1 hopening.2 hlast
  · rw [List.append_assoc]
    exact .cons hopening.1 hopening.2 <|
      (scansAs_lines (level + 1) h).append (hlast.behindSpaces (isSpace_of_mem_newLine level))
        fun _ => endsNumber_cons (by decide) _

end Token

-- ════════════════════════════════════════════════════════════════════════
-- The indented form
-- ════════════════════════════════════════════════════════════════════════

theorem prettyItems_eq_map (level : Nat) (items : List Json) :
    prettyItems level items = items.map (prettyChars level) := by
  induction items with
  | nil => rfl
  | cons v rest ih => rw [prettyItems, ih, List.map_cons]

theorem prettyFields_eq_map (level : Nat) (fields : List (String × Json)) :
    prettyFields level fields =
      fields.map fun f => Quoted.quote f.1.toList ++ ':' :: ' ' :: prettyChars level f.2 := by
  induction fields with
  | nil => rfl
  | cons f rest ih => rw [prettyFields, ih, List.map_cons]

theorem itemTokens_rawItems (items : List Json) :
    Raw.itemTokens (rawItems items) = items.map fun v => v.raw.tokens := by
  induction items with
  | nil => rfl
  | cons v rest ih => rw [rawItems, Raw.itemTokens, ih, List.map_cons]

theorem fieldTokens_rawFields (fields : List (String × Json)) :
    Raw.fieldTokens (rawFields fields) = fields.map fun f =>
      .string (f.1.toList.map Quoted.partOf) :: .colon :: f.2.raw.tokens := by
  induction fields with
  | nil => rfl
  | cons f rest ih => rw [rawFields, Raw.fieldTokens, ih, List.map_cons]

/-- The indented form is scanned into the tokens of the value. -/
theorem scansAs_prettyChars {v : Json} (h : v.IsWritable) (level : Nat) :
    Token.ScansAs (prettyChars level v) v.raw.tokens := by
  induction h generalizing level with
  | null => exact fun rest _ => Token.scan?_token rfl rfl
  | bool b => cases b <;> exact fun rest _ => Token.scan?_token rfl rfl
  | int _ =>
    rw [prettyChars, ← chars_intLiteral]
    exact Token.scansAs_chars (intLiteral_isWritten _)
  | real hfinite =>
    rw [prettyChars, ← chars_realLiteral hfinite]
    exact Token.scansAs_chars (isReal_realLiteral hfinite).written
  | string s => exact Token.scansAs_quote s.toList
  | array _ ih =>
    rw [prettyChars, raw, Raw.tokens, prettyItems_eq_map, itemTokens_rawItems]
    refine Token.scansAs_block level ⟨rfl, fun _ => rfl⟩ ⟨rfl, fun _ => rfl⟩ ?_
    rw [List.forall₂_map_left_iff, List.forall₂_map_right_iff, List.forall₂_same]
    exact fun v hv => ih v hv (level + 1)
  | object _ ih =>
    rw [prettyChars, raw, Raw.tokens, prettyFields_eq_map, fieldTokens_rawFields]
    refine Token.scansAs_block level ⟨rfl, fun _ => rfl⟩ ⟨rfl, fun _ => rfl⟩ ?_
    rw [List.forall₂_map_left_iff, List.forall₂_map_right_iff, List.forall₂_same]
    intro f hf
    have hspace : ∀ c ∈ [' '], Token.isSpace c = true := List.forall_mem_singleton.mpr rfl
    have hvalue := (ih f hf (level + 1)).behindSpaces hspace
    exact (Token.scansAs_quote f.1.toList).append (.cons rfl (fun _ => rfl) hvalue)
      fun _ => Token.endsNumber_cons (by decide) _

end CustomFunctions.Json
