import CustomFunctions.Text.Blank
import CustomFunctions.Text.Lines

/-!
# Doc comments

A doc comment is a block comment whose text documents the declaration behind it. It is kept as its
body lines, without the comment marks and without the asterisk that may begin a line.
-/

namespace CustomFunctions

/-- The body lines of a comment block and the source line on which the block begins. -/
structure DocComment where
  lines : List String
  line : Nat
deriving DecidableEq, Inhabited

namespace DocComment

/-- The text without `mark` at its start, if it starts so. -/
def withoutStart (mark s : List Char) : List Char :=
  (mark.isPrefixOf? s).getD s

/-- The text without `mark` at its end, if it ends so. -/
def withoutEnd (mark s : List Char) : List Char :=
  (mark.isSuffixOf? s).getD s

/-- The text of a block between its comment marks. A block that begins with a single asterisk is
taken as well. -/
def body (block : List Char) : List Char :=
  let inner := Text.trim block
  let opened :=
    match "/**".toList.isPrefixOf? inner with
    | some rest => rest
    | none => withoutStart "/*".toList inner
  withoutEnd "*/".toList opened

/-- A line of a block without its indentation, one asterisk, one space behind the asterisk and the
blanks at its end. -/
def bodyLine (raw : List Char) : List Char :=
  Text.trimEnd
    (match Text.trimStart raw with
    | '*' :: ' ' :: rest => rest
    | '*' :: rest => rest
    | rest => rest)

/-- The comment that a block stands for. -/
def ofBlock (block : String) (line : Nat) : DocComment where
  lines := (Text.lines (body block.toList)).map fun raw => String.ofList (bodyLine raw)
  line := line

/-- The body lines as one text. -/
def text (doc : DocComment) : String :=
  "\n".intercalate doc.lines

end DocComment

end CustomFunctions
