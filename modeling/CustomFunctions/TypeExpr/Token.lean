import CustomFunctions.Text.Blank
import CustomFunctions.Text.Letter

/-!
# Tokens of type expressions

The text of a type as a list of tokens, blanks between them being dropped. Any character that
begins no longer token is a token of its own; only a string that is never closed has no tokens.
-/

namespace CustomFunctions.TypeExpr

/-- A token of a type expression. -/
inductive Token where
  | word (name : String)
  | number
  | string
  | ellipsis
  | arrow
  | mark (c : Char)
deriving DecidableEq, Inhabited

namespace Token

/-- May a word begin with `c`? -/
def startsWord (c : Char) : Bool :=
  Text.isLetter c || c = '_' || c = '$'

/-- May `c` stand in a word? -/
def inWord (c : Char) : Bool :=
  Text.isLetterOrNumber c || c = '_' || c = '$'

/-- May `c` stand in a number behind its first digit? -/
def inNumber (c : Char) : Bool :=
  c.isAlphanum || c = '.' || c = '_'

/-- The text behind the quotation mark that closes a string; a backslash hides the character
behind it. -/
def afterString? (quote : Char) : List Char → Option (List Char)
  | [] => none
  | '\\' :: rest =>
    if quote = '\\' then some rest
    else
      match rest with
      | [] => none
      | _ :: rest => afterString? quote rest
  | c :: rest => if c = quote then some rest else afterString? quote rest

/-- The token at the start of a text that begins with `c`, which is no blank, and the text behind
the token. -/
def next? (c : Char) (rest : List Char) : Option (Token × List Char) :=
  if startsWord c then
    some (word (String.ofList (c :: rest.takeWhile inWord)), rest.dropWhile inWord)
  else if c.isDigit || (c = '-' && rest.head?.any Char.isDigit) then
    some (number, rest.dropWhile inNumber)
  else if c = '"' || c = '\'' || c = '`' then (afterString? c rest).map fun rest => (string, rest)
  else
    match c, rest with
    | '.', '.' :: '.' :: rest => some (ellipsis, rest)
    | '=', '>' :: rest => some (arrow, rest)
    | c, rest => some (mark c, rest)

theorem afterString?_length {quote : Char} {s rest : List Char}
    (h : afterString? quote s = some rest) : rest.length < s.length := by
  fun_induction afterString? quote s <;> grind

theorem next?_length {c : Char} {s rest : List Char} {t : Token}
    (h : next? c s = some (t, rest)) : rest.length ≤ s.length := by
  unfold next? at h
  split at h
  · have := (List.dropWhile_suffix (l := s) inWord).length_le
    grind
  · split at h
    · have := (List.dropWhile_suffix (l := s) inNumber).length_le
      grind
    · split at h
      · obtain ⟨r, hr, h⟩ := Option.map_eq_some_iff.1 h
        have := afterString?_length hr
        grind
      · split at h <;> grind

/-- The tokens of a text; none if a string in it is never closed. -/
def scan? (s : List Char) : Option (List Token) :=
  match s with
  | [] => some []
  | c :: rest =>
    if Text.isBlank c then scan? rest
    else
      match _ : next? c rest with
      | some (t, rest) => (scan? rest).map (t :: ·)
      | none => none
termination_by s.length
decreasing_by
  · simp
  · exact Nat.lt_succ_of_le (next?_length ‹_›)

end Token

end CustomFunctions.TypeExpr
