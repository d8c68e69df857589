import CustomFunctions.Script.Terminal

/-!
# Goals

The phrases of the grammar that can stand inside each other. The rules for them are written with the
rule for smaller phrases as a parameter, so that each of them is an ordinary definition; the parser
ties them together.
-/

namespace CustomFunctions.Script

/-- A phrase of the grammar. -/
inductive Goal where
  | statement
  /-- Statements in braces. -/
  | block
  /-- An expression without commas. `withIn` tells whether the operator `in` may stand in it. -/
  | expression (withIn : Bool)
  /-- An expression with commas. -/
  | expressions (withIn : Bool)
  /-- An operand of binary operators. -/
  | unary
  /-- A primary expression with accesses and calls. -/
  | access
  | type
  /-- A type that is no union. -/
  | typeOperand
  /-- A name or a destructuring pattern. -/
  | pattern
  /-- An element of markup, without the gap behind it. -/
  | markup
deriving DecidableEq

/-- What the rules of the grammar depend on: the dialect, and the rules for the phrases inside. -/
structure Grammar where
  dialect : Language
  inner : Goal → Rule Tree

namespace Grammar

/-- Does the dialect have type annotations? -/
def typed (g : Grammar) : Bool :=
  g.dialect = .typeScript

/-- Reads a phrase of which only the text counts. -/
def skim (g : Grammar) (goal : Goal) : Rule Unit := do
  let _ ← g.inner goal

/-- Reads by the rule if the dialect has type annotations. -/
def ifTyped {α : Type} (g : Grammar) (p : Rule α) : Rule α :=
  if g.typed then p else .never

/-- Reads an expression without commas. -/
def expression (g : Grammar) : Rule Tree :=
  g.inner (.expression true)

/-- Reads an expression in parentheses. -/
def inParens (g : Grammar) : Rule Tree := do
  Rule.mark "("
  let e ← g.inner (.expressions true)
  Rule.mark ")"
  return e

end Grammar

end CustomFunctions.Script
