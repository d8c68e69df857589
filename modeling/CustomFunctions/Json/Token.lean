import CustomFunctions.Json.NumberText
import CustomFunctions.Json.Quoted

/-!
# Tokens of JSON

The text of a JSON value as a list of tokens. Strings and numbers are kept as they are written, so
that a value nobody asks for need not be in range.
-/

namespace CustomFunctions.Json

/-- A token of JSON. -/
inductive Token where
  | openBrace
  | closeBrace
  | openBracket
  | closeBracket
  | comma
  | colon
  | null
  | bool (b : Bool)
  | number (literal : NumberLiteral)
  | string (parts : List Quoted.Part)
deriving DecidableEq, Inhabited

namespace Token

/-- Is `c` one of the four characters that may stand between tokens? -/
def isSpace (c : Char) : Bool :=
  c = ' ' || c = '\n' || c = '\r' || c = '\t'

/-- The digits at the start of the text, and the rest. -/
def digits (s : List Char) : List Char × List Char :=
  (s.takeWhile Char.isDigit, s.dropWhile Char.isDigit)

/-- The integer part of a number: a single zero, or digits that do not begin with zero. -/
def integer? : List Char → Option (List Char × List Char)
  | '0' :: rest => some (['0'], rest)
  | c :: rest => if c.isDigit then some (digits (c :: rest)) else none
  | [] => none

/-- The fraction of a number, if there is one; a point needs a digit behind it. -/
def fraction? : List Char → Option (Option (List Char) × List Char)
  | '.' :: rest =>
    let (d, rest) := digits rest
    if d = [] then none else some (some d, rest)
  | s => some (none, s)

/-- The sign of an exponent and the text behind it. -/
def exponentSign : List Char → Bool × List Char
  | '+' :: rest => (false, rest)
  | '-' :: rest => (true, rest)
  | s => (false, s)

/-- The exponent of a number, if there is one; its letter needs a digit behind it. -/
def exponent? (s : List Char) : Option (Option (Bool × List Char) × List Char) :=
  match s with
  | c :: rest =>
    if c = 'e' ∨ c = 'E' then
      let (negative, rest) := exponentSign rest
      let (d, rest) := digits rest
      if d = [] then none else some (some (negative, d), rest)
    else some (none, s)
  | [] => some (none, s)

/-- The number at the start of the text, behind its sign. -/
def unsigned? (negative : Bool) (s : List Char) : Option (Token × List Char) := do
  let (integer, s) ← integer? s
  let (fraction, s) ← fraction? s
  let (exponent, s) ← exponent? s
  return (.number { negative, integer, fraction, exponent }, s)

/-- The number at the start of the text. -/
def number? : List Char → Option (Token × List Char)
  | '-' :: rest => unsigned? true rest
  | s => unsigned? false s

/-- The token at the start of the text, which is no space, and the text behind it. -/
def next? : List Char → Option (Token × List Char)
  | '{' :: rest => some (openBrace, rest)
  | '}' :: rest => some (closeBrace, rest)
  | '[' :: rest => some (openBracket, rest)
  | ']' :: rest => some (closeBracket, rest)
  | ',' :: rest => some (comma, rest)
  | ':' :: rest => some (colon, rest)
  | '"' :: rest => (Quoted.parts? [] rest).map fun (p, rest) => (string p, rest)
  | 'n' :: 'u' :: 'l' :: 'l' :: rest => some (null, rest)
  | 't' :: 'r' :: 'u' :: 'e' :: rest => some (bool true, rest)
  | 'f' :: 'a' :: 'l' :: 's' :: 'e' :: rest => some (bool false, rest)
  | s => number? s

theorem digits_length (s : List Char) : (digits s).2.length ≤ s.length :=
  (List.dropWhile_suffix _).length_le

theorem integer?_length {s rest : List Char} {d : List Char} (h : integer? s = some (d, rest)) :
    rest.length < s.length := by
  unfold integer? at h
  split at h
  · grind
  · next c r _ =>
    split at h
    · next hc =>
      simp only [digits, Option.some.injEq, Prod.mk.injEq, List.dropWhile_cons, hc, if_true] at h
      have := (List.dropWhile_suffix (l := r) Char.isDigit).length_le
      grind
    · simp at h
  · simp at h

theorem fraction?_length {s rest : List Char} {d : Option (List Char)}
    (h : fraction? s = some (d, rest)) : rest.length ≤ s.length := by
  unfold fraction? at h
  split at h
  · next r =>
    have := digits_length r
    grind
  · grind

theorem exponentSign_length (s : List Char) : (exponentSign s).2.length ≤ s.length := by
  unfold exponentSign
  split <;> grind

theorem exponent?_length {s rest : List Char} {e : Option (Bool × List Char)}
    (h : exponent? s = some (e, rest)) : rest.length ≤ s.length := by
  unfold exponent? at h
  split at h
  · next c r =>
    split at h
    · have h₁ := exponentSign_length r
      have h₂ := digits_length (exponentSign r).2
      grind
    · grind
  · grind

theorem unsigned?_length {negative : Bool} {s rest : List Char} {t : Token}
    (h : unsigned? negative s = some (t, rest)) : rest.length < s.length := by
  simp only [unsigned?, Option.bind_eq_bind, Option.bind_eq_some_iff, Prod.exists] at h
  obtain ⟨_, s₁, h₁, _, s₂, h₂, _, s₃, h₃, h⟩ := h
  have := integer?_length h₁
  have := fraction?_length h₂
  have := exponent?_length h₃
  grind

theorem number?_length {s rest : List Char} {t : Token} (h : number? s = some (t, rest)) :
    rest.length < s.length := by
  unfold number? at h
  split at h
  · have := unsigned?_length h
    grind
  · exact unsigned?_length h

/-- Every token takes at least one character. -/
theorem next?_length {s rest : List Char} {t : Token} (h : next? s = some (t, rest)) :
    rest.length < s.length := by
  unfold next? at h
  split at h
  all_goals first
    | exact number?_length h
    | simp only [Option.map_eq_some_iff, Prod.exists] at h
      obtain ⟨p, r, h₁, h₂⟩ := h
      have := Quoted.parts?_length h₁
      grind
    | grind

/-- The tokens of a text; none if some part of it is no token. -/
def scan? (s : List Char) : Option (List Token) :=
  match s with
  | [] => some []
  | c :: rest =>
    if isSpace c then scan? rest
    else
      match _ : next? (c :: rest) with
      | some (t, rest) => (scan? rest).map (t :: ·)
      | none => none
termination_by s.length
decreasing_by
  · simp
  · exact next?_length ‹_›

end Token

end CustomFunctions.Json
