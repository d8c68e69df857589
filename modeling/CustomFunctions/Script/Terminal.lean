import CustomFunctions.Script.Lexeme
import CustomFunctions.Script.Rule
import CustomFunctions.Script.Tree

/-!
# Terminal rules

The rules that read single tokens, and the rule for the end of a statement.

A statement may end without a semicolon: before a closing brace, at the end of the text, and at a
line break unless the next token could only go on with the statement.
-/

namespace CustomFunctions.Script

/-- The words that are no names. -/
def reservedWords : List (List Char) :=
  ["break", "case", "catch", "class", "const", "continue", "debugger", "default", "delete", "do",
    "else", "export", "extends", "false", "finally", "for", "function", "if", "import", "in",
    "instanceof", "new", "null", "return", "super", "switch", "this", "throw", "true", "try",
    "typeof", "var", "void", "while", "with"].map String.toList

/-- What a statement may end behind. -/
inductive EndPlace where
  | expression
  | keyword
  | type
deriving DecidableEq

namespace State

/-- The word that stands here; empty if none does. -/
def word (st : State) : List Char :=
  st.rest.take (Lexeme.word st.rest)

/-- The mark that stands here; empty if none does. -/
def mark (st : State) : List Char :=
  if Lexeme.word st.rest = 0 then Lexeme.mark st.rest else []

/-- Does the given word stand here? -/
def atWord (st : State) (w : String) : Bool :=
  st.word = w.toList

/-- Does the given mark stand here? -/
def atMark (st : State) (m : String) : Bool :=
  st.mark = m.toList

/-- Is the next token on the line of the one before? -/
def sameLine (st : State) : Bool :=
  ! st.gap.breaksLine

/-- Could the text only go on with the statement before it, even behind a line break? Brackets go
on with an expression but not with a type. -/
def continues (st : State) (dialect : Language) (place : EndPlace) : Bool :=
  match st.rest with
  | '.' :: rest => ! (rest.head?.any Char.isDigit)
  | '+' :: rest => rest.head? ≠ some '+'
  | '-' :: rest => rest.head? ≠ some '-'
  | '!' :: rest => rest.head? = some '='
  | c :: _ =>
    "`,:;*%><=?^|&/".toList.contains c || st.atWord "in" || st.atWord "instanceof"
      || ((c = '[' || c = '(')
        && (place = .expression || (place = .keyword && dialect = .javaScript)))
  | [] => false

end State

namespace Rule

/-- Reads a lexeme whose length is given by its scanner. -/
def lexeme (scan : List Char → Nat) : Rule (List Char) :=
  ⟨fun st =>
    match scan st.rest with
    | 0 => (none, st.refuse)
    | n => (some (st.rest.take n), st.advance n)⟩

/-- Reads the given word. -/
def word (w : String) : Rule Unit :=
  ⟨fun st => if st.atWord w then (some (), st.advance w.length) else (none, st.refuse)⟩

/-- Reads one of the given words. -/
def anyWordOf (ws : List String) : Rule (List Char) :=
  ⟨fun st =>
    if ws.any st.atWord then (some st.word, st.advance st.word.length) else (none, st.refuse)⟩

/-- Reads the given mark, which must not be the beginning of a longer one. -/
def mark (m : String) : Rule Unit :=
  ⟨fun st => if st.atMark m then (some (), st.advance m.length) else (none, st.refuse)⟩

/-- Reads one of the given marks. -/
def anyMarkOf (ms : List String) : Rule (List Char) :=
  ⟨fun st =>
    if ms.any st.atMark then (some st.mark, st.advance st.mark.length) else (none, st.refuse)⟩

/-- Reads a single character as a mark, also at the beginning of a longer one. -/
def char (c : Char) : Rule Unit :=
  ⟨fun st => if st.rest.head? = some c then (some (), st.advance 1) else (none, st.refuse)⟩

/-- Reads characters that have no gap behind them. -/
def bare (text : String) : Rule Unit :=
  ⟨fun st =>
    if text.toList.isPrefixOf st.rest then (some (), st.skip text.length) else (none, st.refuse)⟩

/-- Reads a word of any kind. -/
def anyWord : Rule (List Char) :=
  lexeme Lexeme.word

/-- Reads the name of a member of a value. -/
def memberName : Rule (List Char) :=
  orElse anyWord (lexeme Lexeme.privateName)

/-- Reads a word that is not reserved. -/
def name : Rule (List Char) := do
  check fun st => ! reservedWords.contains st.word
  anyWord

/-- Reads a word that may be declared. Where the dialect has type annotations, every word may. -/
def binding (dialect : Language) : Rule (List Char) :=
  match dialect with
  | .typeScript => anyWord
  | .javaScript => name

/-- Reads the end of a statement. Directly behind a keyword a line break inside a comment counts as
well. -/
def statementEnd (dialect : Language) (place : EndPlace) : Rule Unit :=
  orElse (mark ";")
    (check fun st =>
      st.rest = [] || st.rest.head? = some '}'
        || ((st.gap.breaksLine || (place = .keyword && st.gap.breaksInComment))
          && ! st.continues dialect place))

/-- Reads phrases between commas, at least one. -/
def commaList {α : Type} (p : Rule α) : Rule (List α) :=
  list p (mark ",")

/-- Reads phrases between commas; each one may be missing. -/
def sparseList {α : Type} (p : Rule α) : Rule (List α) := do
  return (← commaList (optional p)).filterMap id

/-- Reads phrases between commas, possibly none, with a comma allowed behind the last. -/
def trailingList {α : Type} (p : Rule α) : Rule (List α) := do
  let items ← optional (commaList p)
  if items.isSome then
    let _ ← optional (mark ",")
  return items.getD []

end Rule

end CustomFunctions.Script
