import CustomFunctions.Script.Grammar.Goal

/-!
# Markup

The rules for elements of markup inside a script. Between tags every blank belongs to the text, so
these rules read characters without the gaps behind them.
-/

namespace CustomFunctions.Script.Grammar

open Rule

/-- Reads the value of an attribute in quotation marks, which may hold anything else at which reading
does not stop. -/
def markupString : Rule Unit :=
  ⟨fun st =>
    match st.rest with
    | c :: rest =>
      let text := rest.takeWhile (· ≠ c)
      if (c = '"' ∨ c = '\'') ∧ rest.contains c ∧ ! text.any isStop then
        (some (), st.advance (text.length + 2))
      else (none, st.refuse)
    | [] => (none, st.refuse)⟩

/-- Reads text between tags. -/
def markupText : Rule Unit :=
  ⟨fun st =>
    match Lexeme.markupText st.rest with
    | 0 => (none, st.refuse)
    | n => (some (), st.skip n)⟩

/-- Reads an expression in braces, without the gap behind it. It may be missing. -/
def embedded (g : Grammar) : Rule (List Tree) := do
  mark "\x7b"
  let _ ← optional (mark "...")
  let e ← optional (g.inner (.expressions true))
  bare "\x7d"
  return e.toList

/-- Reads an element as a value, with the gap behind it. -/
def element (g : Grammar) : Rule Tree := do
  let e ← g.inner .markup
  moveTo (← state).pass
  return e

/-- Reads an attribute. -/
def markupAttribute (g : Grammar) : Rule (List Tree) :=
  orElse
    (do
      let e ← g.embedded
      moveTo (← state).pass
      return e)
    (do
      let _ ← lexeme Lexeme.markupName
      let value ← optional do
        mark "="
        oneOf [
          do
            markupString
            return [],
          do
            let e ← g.embedded
            moveTo (← state).pass
            return e,
          do
            return [← g.element]]
      return value.getD [])

/-- Reads what may stand between two tags. -/
def content (g : Grammar) : Rule (List Tree) :=
  oneOf [
    do
      markupText
      return [],
    g.embedded,
    do
      return [← g.inner .markup]]

/-- Reads an element, without the gap behind it. -/
def markup (g : Grammar) : Rule Tree := do
  mark "<"
  let name ← optional (lexeme Lexeme.markupName)
  let attributes ← many g.markupAttribute
  orElse
    (do
      if name.isNone then refuse
      mark "/"
      bare ">"
      return .other attributes.flatten)
    (do
      bare ">"
      let contents ← many g.content
      mark "<"
      mark "/"
      let _ ← optional (lexeme Lexeme.markupName)
      bare ">"
      return .other (attributes.flatten ++ contents.flatten))

end CustomFunctions.Script.Grammar
