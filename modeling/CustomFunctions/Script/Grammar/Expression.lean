import CustomFunctions.Script.Grammar.Callable
import CustomFunctions.Script.Grammar.Markup

/-!
# Expressions

The rules for expressions, from literals up to lists with commas. Operators have no precedence here:
nothing that is read off a tree depends on how the operands of a chain of operators are grouped.
-/

namespace CustomFunctions.Script.Grammar

open Rule

/-! ## Literals and other primary expressions -/

/-- Reads an expression that is spread into a list. -/
def spread (g : Grammar) : Rule Tree := do
  mark "..."
  return .other [← g.expression]

/-- Reads a pattern that something is assigned to. -/
def assignedPattern (g : Grammar) : Rule (List Tree) := do
  let p ← g.inner .pattern
  check (·.atMark "=")
  return [p]

/-- Reads an array. Elements may be missing. -/
def array (g : Grammar) : Rule Tree :=
  orElse
    (do
      mark "["
      let elements ← sparseList (orElse g.spread g.expression)
      mark "]"
      return .array elements)
    (do
      return .array (← g.assignedPattern))

/-- Reads a member of an object. -/
def objectMember (g : Grammar) : Rule (List Tree) :=
  orElse
    (do
      return [← g.spread])
    (do
      let _ ← modifiers ["async", "get", "set", "static"] "\"'[#*".toList
      let _ ← optional (mark "*")
      let start ← state
      let name ← g.propertyName
      let value ← oneOf [
        do
          mark ":"
          return [← g.expression],
        do
          check fun st => st.atMark "(" || st.atMark "<"
          return [← g.functionRest],
        do
          check fun _ =>
            start.word ≠ [] && (g.typed || ! reservedWords.contains start.word)
          return []]
      return name ++ value)

/-- Reads an object. -/
def object (g : Grammar) : Rule Tree :=
  orElse
    (do
      mark "\x7b"
      let members ← sparseList g.objectMember
      mark "\x7d"
      return .object members.flatten)
    (do
      return .object (← g.assignedPattern))

/-- Reads the arguments of a call. -/
def arguments (g : Grammar) : Rule (List Tree) := do
  mark "("
  let args ← sparseList (orElse g.spread g.expression)
  mark ")"
  return args

/-- Reads a literal other than an array or an object. -/
def literal (g : Grammar) : Rule Tree :=
  oneOf [
    do
      return .number (← lexeme Lexeme.number),
    do
      return .string (← lexeme Lexeme.string),
    g.template,
    do
      let _ ← lexeme Lexeme.pattern
      return .other [],
    do
      word "true"
      return .boolean true,
    do
      word "false"
      return .boolean false]

/-- Reads what a chain of accesses and calls begins with. -/
def primary (g : Grammar) : Rule Tree :=
  oneOf [
    g.literal,
    do
      let _ ← anyWordOf ["null", "this", "super"]
      return .other [],
    do
      return .parens (← g.inParens),
    g.array,
    g.object,
    g.functionExpression,
    g.classExpression,
    do
      word "new"
      mark "."
      word "target"
      return .other [],
    do
      word "new"
      return .place [← g.inner .access],
    do
      word "import"
      check fun st => st.atMark "(" || st.atMark "."
      return .other [],
    do
      let _ ← lexeme Lexeme.privateName
      check (·.atWord "in")
      return .other [],
    do
      if g.typed then never
      g.element,
    do
      let _ ← name
      return .place []]

/-! ## Accesses and calls -/

/-- Reads an access to a member. -/
def member (g : Grammar) : Rule (List Tree) :=
  oneOf [
    do
      mark "."
      let _ ← memberName
      return [],
    do
      mark "["
      let e ← g.inner (.expressions true)
      mark "]"
      return [e],
    do
      if ! g.typed then never
      check (·.sameLine)
      mark "!"
      return []]

/-- Reads an access that applies only if there is something to access. -/
def optionalMember (g : Grammar) : Rule (List Tree) := do
  mark "?."
  oneOf [
    g.arguments,
    do
      return [← g.template],
    do
      mark "["
      let e ← g.inner (.expressions true)
      mark "]"
      return [e],
    do
      let _ ← memberName
      return [],
    do
      g.ifTyped g.typeArguments
      g.arguments]

/-- Could an expression begin here? -/
def beginsOperand (st : State) : Bool :=
  st.word ≠ [] && ! st.atWord "in" && ! st.atWord "instanceof" && st.sameLine
    || Lexeme.number st.rest ≠ 0 || Lexeme.string st.rest ≠ 0
    || "[\x7b<+-~!@#/".toList.any (st.rest.head? = some ·)

/-- Reads a call, possibly without arguments if types are given. -/
def call (g : Grammar) : Rule (List Tree) :=
  oneOf [
    g.arguments,
    do
      return [← g.template],
    do
      g.ifTyped g.typeArguments
      check (! beginsOperand ·)
      return []]

/-- Reads a primary expression with accesses and calls. -/
def access (g : Grammar) : Rule Tree := do
  let first ← g.primary
  let steps ← many (oneOf [
    do
      return (true, ← g.member),
    do
      return (false, ← g.optionalMember),
    do
      return (false, ← g.call)])
  match steps.getLast? with
  | none => return first
  | some (true, _) => return .place (first :: steps.flatMap (·.2))
  | some (false, _) => return .other (first :: steps.flatMap (·.2))

/-! ## Operators -/

/-- Reads an operand of binary operators. -/
def unary (g : Grammar) : Rule Tree :=
  oneOf [
    do
      let operator ← orElse (anyMarkOf ["!", "~", "-", "+"]) (anyWordOf ["typeof", "void", "delete"])
      return .unary operator (← g.inner .unary),
    do
      let _ ← anyMarkOf ["++", "--"]
      return .other [← g.inner .unary],
    do
      word "await"
      return .other [← g.inner .unary],
    do
      g.ifTyped do
        mark "<"
        orElse (word "const") g.type
        char '>'
      return .other [← g.inner .unary],
    do
      let e ← g.inner .access
      let step ← optional do
        check (·.sameLine)
        anyMarkOf ["++", "--"]
      return if step.isSome then .other [e] else e]

/-- The marks of binary operators. -/
def binaryMarks : List String :=
  ["&&", "||", "??", "|", "&", "^", "==", "===", "!=", "!==", "<", ">", "<=", ">=", "<<", ">>",
    ">>>", "+", "-", "*", "/", "%", "**"]

/-- The marks of assignments. -/
def assignmentMarks : List String :=
  ["=", "+=", "-=", "*=", "/=", "%=", "**=", "<<=", ">>=", ">>>=", "&=", "|=", "^=", "&&=", "||=",
    "??="]

/-- Reads a binary operator. -/
def binaryOperator (withIn : Bool) : Rule Unit := do
  let _ ← oneOf [
    anyMarkOf binaryMarks,
    anyWordOf (if withIn then ["instanceof", "in"] else ["instanceof"])]

/-- Reads a binary operator with the operand behind it, or a conversion to a type. -/
def operation (g : Grammar) (withIn : Bool) : Rule Tree :=
  orElse
    (do
      binaryOperator withIn
      orElse (g.arrow withIn) (g.inner .unary))
    (g.ifTyped do
      check (·.sameLine)
      let _ ← anyWordOf ["as", "satisfies"]
      orElse (word "const") g.type
      return .other [])

/-- Reads the two branches behind a condition. -/
def branches (g : Grammar) (withIn : Bool) : Rule (List Tree) := do
  mark "?"
  let yes ← orElse
    (do
      let e ← g.expression
      mark ":"
      return e)
    (do
      let e ← g.inner .access
      mark ":"
      return e)
  return [yes, ← g.inner (.expression withIn)]

/-- Reads a chain of operators, with an assignment or the branches of a condition behind it. -/
def chain (g : Grammar) (withIn : Bool) : Rule Tree := do
  let first ← g.inner .unary
  let rest ← many (g.operation withIn)
  let value ← optional do
    check fun _ => (rest.getLast?.getD first).isAssignable
    let _ ← anyMarkOf assignmentMarks
    g.inner (.expression withIn)
  let cases ← optional (g.branches withIn)
  match rest ++ value.toList ++ cases.getD [] with
  | [] => return first
  | more => return .other (first :: more)

/-- Reads an expression that hands out a value. -/
def yieldExpression (g : Grammar) (withIn : Bool) : Rule Tree := do
  word "yield"
  let star ← optional (mark "*")
  let value ← optional do
    check fun st => star.isSome || st.sameLine
    g.inner (.expression withIn)
  return .other value.toList

/-- Reads an expression without commas. -/
def wholeExpression (g : Grammar) (withIn : Bool) : Rule Tree :=
  oneOf [g.arrow withIn, g.yieldExpression withIn, g.chain withIn]

/-- Reads an expression with commas. -/
def expressionList (g : Grammar) (withIn : Bool) : Rule Tree := do
  match ← commaList (g.inner (.expression withIn)) with
  | [e] => return e
  | list => return .other list

end CustomFunctions.Script.Grammar
