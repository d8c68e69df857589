import CustomFunctions.Script.Grammar.Statement

/-!
# Reading scripts

The rules of the grammar tied together, and the statements of a whole script.

## Main definitions

- `phrase` — the rule for a phrase of the grammar
- `statements?` — the statements of a script with the comments right before them, or the line of the
  first token that cannot continue it
-/

namespace CustomFunctions.Script

namespace Grammar

open Rule

/-- Reads a type as a tree without parts. -/
def typeTree (p : Rule Unit) : Rule Tree := do
  p
  return .other []

/-- The rule for each phrase, given the rules for the phrases inside it. -/
def rule (g : Grammar) : Goal → Rule Tree
  | .statement => do return (← g.wholeStatement).tree
  | .block => g.block
  | .expression withIn => g.wholeExpression withIn
  | .expressions withIn => g.expressionList withIn
  | .unary => g.unary
  | .access => g.access
  | .type => typeTree g.wholeType
  | .typeOperand => typeTree g.typeOperand
  | .pattern => g.pattern
  | .markup => g.markup

end Grammar

/-- The rule for a phrase that holds phrases inside each other up to the given depth. -/
def phrase (dialect : Language) : Nat → Goal → Rule Tree
  | 0, _ => .never
  | depth + 1, goal => Grammar.rule ⟨dialect, phrase dialect depth⟩ goal

/-- A depth that no text of the given length exceeds: a phrase that begins where the phrase around
it begins is one of less than sixteen. -/
def depthBound (length : Nat) : Nat :=
  16 * (length + 1)

/-- Reads the line that names the interpreter of a script. -/
def interpreterLine : Rule Unit := do
  Rule.check fun st => "#!".toList.isPrefixOf st.rest
  let _ ← Rule.lexeme fun s => (s.takeWhile (! endsLineComment ·)).length

/-- Reads all statements of a script, each with the doc comment right before it. -/
def program (g : Grammar) : Rule (List (Option Comment × Statement)) := do
  let _ ← Rule.optional interpreterLine
  let list ← Rule.many do
    let doc? := (← Rule.state).gap.doc?
    return (doc?, ← g.wholeStatement)
  Rule.check (·.rest = [])
  return list

/-- The statements of a script, each with the doc comment right before it; or the line of the first
token that cannot continue the script. -/
def statements? (dialect : Language) (text : List Char) :
    Except Nat (List (Option Comment × Statement)) :=
  match (program ⟨dialect, phrase dialect (depthBound text.length)⟩).run (State.start text) with
  | (some list, _) => .ok list
  | (none, st) => .error st.refusedLine

end CustomFunctions.Script
