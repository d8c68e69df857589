import CustomFunctions.Script.Grammar.Goal
import CustomFunctions.TypeExpr.Parser

/-!
# Patterns and parameters

What a value can be bound to: a name, or a pattern that takes a value apart. Parameters are patterns
with what may stand around them.
-/

namespace CustomFunctions.Script.Grammar

open Rule

/-- Reads a template, with the given rule for what stands in its substitutions. -/
def templateOf (inner : Rule Tree) : Rule Tree := do
  let (parts, text, _) ← spanned do
    bare "`"
    let text : Rule Unit := ⟨fun st =>
      match Lexeme.templateText st.rest with
      | some n => (some (), st.skip n)
      | none => (none, st.refuse)⟩
    text
    let parts ← many do
      bare "$\x7b"
      moveTo (← state).pass
      let e ← inner
      bare "\x7d"
      text
      return e
    bare "`"
    return parts
  moveTo (← state).pass
  return .template text parts

/-- Reads a template with the expressions in it. -/
def template (g : Grammar) : Rule Tree :=
  templateOf (g.inner (.expressions true))

/-- Reads the name of a property: a word, a literal, a computed name or a private name. -/
def propertyName (g : Grammar) : Rule (List Tree) :=
  oneOf [
    do
      let _ ← anyWord
      return [],
    do
      let _ ← lexeme Lexeme.string
      return [],
    do
      let _ ← lexeme Lexeme.number
      return [],
    do
      mark "["
      let e ← g.expression
      mark "]"
      return [e],
    do
      let _ ← lexeme Lexeme.privateName
      return []]

/-- Reads an initial or default value. -/
def initializer (g : Grammar) (withIn : Bool) : Rule Tree := do
  mark "="
  g.inner (.expression withIn)

/-- Reads a pattern with a default value, which may be missing. -/
def patternWithDefault (g : Grammar) : Rule (List Tree) := do
  let p ← g.inner .pattern
  let value ← optional (g.initializer true)
  return p :: value.toList

/-- Reads the pattern that takes all that is left. -/
def restPattern (g : Grammar) : Rule (List Tree) := do
  mark "..."
  return [← g.inner .pattern]

/-- Reads a member of a pattern for objects. -/
def memberPattern (g : Grammar) : Rule (List Tree) :=
  oneOf [
    g.restPattern,
    do
      let name ← g.propertyName
      mark ":"
      return name ++ (← g.patternWithDefault),
    do
      let _ ← binding g.dialect
      return (← optional (g.initializer true)).toList]

/-- Reads a name with accesses behind it, or a pattern that takes a value apart. -/
def pattern (g : Grammar) : Rule Tree :=
  oneOf [
    do
      mark "["
      let parts ← sparseList (oneOf [g.restPattern, g.patternWithDefault])
      mark "]"
      return .other parts.flatten,
    do
      mark "\x7b"
      let parts ← sparseList g.memberPattern
      mark "\x7d"
      return .other parts.flatten,
    do
      let start ← state
      let _ ← orElse (binding g.dialect) (do word "this"; return [])
      let parts ← many (oneOf [
        do
          mark "."
          let _ ← memberName
          return [],
        do
          mark "["
          let e ← g.inner (.expressions true)
          mark "]"
          return [e]])
      check fun _ => g.typed || ! start.atWord "this" || ! parts.isEmpty
      return .other parts.flatten]

/-- Reads a type annotation; what counts is its text behind the colon. -/
def declaredType (type : Rule Unit) : Rule TypeExpr := do
  let (_, text, _) ← spanned do
    mark ":"
    type
  return TypeExpr.parse (String.ofList (text.drop 1))

/-- Reads the modifiers that stand here. A word is a modifier only if a word, or one of the given
characters, follows it. -/
def modifiers (words : List String) (followers : List Char) : Rule (List (List Char)) :=
  many do
    let w ← anyWordOf words
    check fun st => st.word ≠ [] || st.rest.head?.any followers.contains
    return w

/-- Reads a decorator. -/
def decorator (g : Grammar) : Rule Tree := do
  mark "@"
  g.inner .access

/-- Reads what a parameter is bound to, if it has one: the name, or the text of a pattern, and
whether it takes all remaining arguments. The receiver of a method is no parameter. -/
def parameterTarget (g : Grammar) : Rule (Option (List Char × Bool) × List Tree) := do
  let dots ← optional (mark "...")
  let (tree, text, _) ← spanned (g.inner .pattern)
  if text = "this".toList then return (none, [tree])
  return (some (text, dots.isSome), [tree])

/-- Reads a parameter, with its default value if there is one. -/
def parameter (g : Grammar) : Rule (Option ParameterDecl × List Tree) := do
  let line := (← state).line
  if g.typed then
    let _ ← many g.decorator
    let _ ← modifiers ["public", "private", "protected", "override", "readonly"] ['[', '\x7b']
  let (target, parts) ← g.parameterTarget
  let optionalMark ← optional (g.ifTyped (mark "?"))
  let type ← optional (g.ifTyped (declaredType (g.skim .type)))
  let value ← optional (g.initializer true)
  return (target.map fun (name, rest) =>
    { name := String.ofList name, type? := type, optional := optionalMark.isSome
      hasDefault := value.isSome, rest, line },
    parts ++ value.toList)

/-- Reads parameters in parentheses. -/
def parameters (g : Grammar) : Rule (List ParameterDecl × List Tree) := do
  mark "("
  let read ← trailingList g.parameter
  mark ")"
  return (read.filterMap (·.1), read.flatMap (·.2))

end CustomFunctions.Script.Grammar
