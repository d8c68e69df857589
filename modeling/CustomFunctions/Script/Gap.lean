import CustomFunctions.Text.Blank

/-!
# Gaps between tokens

Blanks and comments may stand between any two tokens of a script. A gap keeps its comments, because
a doc comment is the last one before a declaration, and whether it breaks the line, because a
line break can end a statement.
-/

namespace CustomFunctions.Script

/-- A comment with its marks and the line on which it begins. -/
structure Comment where
  text : List Char
  line : Nat
deriving DecidableEq, Inhabited

/-- Is it a doc comment? -/
def Comment.isDoc (c : Comment) : Bool :=
  "/**".toList.isPrefixOf c.text

/-- What stands between two tokens. -/
structure Gap where
  comments : List Comment := []
  /-- Is there a line break outside of block comments? -/
  breaksLine : Bool := false
  /-- Is there a line break inside a block comment? -/
  breaksInComment : Bool := false
deriving DecidableEq, Inhabited

/-- The characters that end a line. -/
def isLineEnd (c : Char) : Bool :=
  c = '\n' || c = '\u2028' || c = '\u2029'

/-- The characters that may stand between tokens: blanks, the byte-order mark, the word joiner and
the zero-width space. -/
def isSpace (c : Char) : Bool :=
  Text.isBlank c || c = '\uFEFF' || c = '\u2060' || c = '\u200B'

/-- Is it the character with the number zero? Reading stops at it: no token and no comment holds it. -/
def isStop (c : Char) : Bool :=
  c = '\x00'

/-- The characters that end a comment of one line. -/
def endsLineComment (c : Char) : Bool :=
  isLineEnd c || isStop c

/-- The number of line feeds in a text, by which lines are counted. -/
def lineFeeds (s : List Char) : Nat :=
  s.count '\n'

/-- The text of a block comment up to and including its closing mark, and the text behind it;
`before` holds what has been read of it, last character first. None if it is never closed. -/
def blockComment? (before : List Char) : List Char → Option (List Char × List Char)
  | [] => none
  | '*' :: '/' :: rest => some (('/' :: '*' :: before).reverse, rest)
  | c :: rest => if isStop c then none else blockComment? (c :: before) rest

theorem blockComment?_length {before s text rest : List Char}
    (h : blockComment? before s = some (text, rest)) : rest.length < s.length := by
  fun_induction blockComment? before s <;> grind

namespace Gap

/-- Reads a gap that begins on the given line: the gap, its last line and the text behind it. A
block comment that is never closed, or not before reading stops, is left unread. -/
def read (line : Nat) (gap : Gap) (s : List Char) : Gap × Nat × List Char :=
  match s with
  | [] => ({ gap with comments := gap.comments.reverse }, line, [])
  | c :: rest =>
    if isSpace c then
      let gap := if isLineEnd c then { gap with breaksLine := true } else gap
      read (if c = '\n' then line + 1 else line) gap rest
    else if c = '/' ∧ rest.head? = some '/' then
      let text := (c :: rest).takeWhile (! endsLineComment ·)
      read line { gap with comments := ⟨text, line⟩ :: gap.comments }
        (rest.dropWhile (! endsLineComment ·))
    else if c = '/' ∧ rest.head? = some '*' then
      match _ : blockComment? ['*', '/'] rest.tail with
      | some (text, rest) =>
        read (line + lineFeeds text)
          { gap with
            comments := ⟨text, line⟩ :: gap.comments
            breaksInComment := gap.breaksInComment || text.any isLineEnd }
          rest
      | none => ({ gap with comments := gap.comments.reverse }, line, c :: rest)
    else ({ gap with comments := gap.comments.reverse }, line, c :: rest)
termination_by s.length
decreasing_by
  · simp
  · exact Nat.lt_succ_of_le (List.dropWhile_suffix _).length_le
  · have := blockComment?_length ‹_›
    simp at this ⊢
    omega

/-- The comment right before the token that ends the gap, if it is a doc comment. -/
def doc? (gap : Gap) : Option Comment :=
  gap.comments.getLast?.filter Comment.isDoc

end Gap

end CustomFunctions.Script
