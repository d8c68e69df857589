import CustomFunctions.Script.Grammar.Declaration

/-!
# Statements in scripts

The rules for statements, with imports and exports.
-/

namespace CustomFunctions.Script.Grammar

open Rule

/-- Reads the body of a loop or of a branch. -/
def substatement (g : Grammar) : Rule Tree :=
  g.inner .statement

/-- Reads statements in braces. -/
def block (g : Grammar) : Rule Tree := do
  mark "\x7b"
  let body ← many g.substatement
  mark "\x7d"
  return .other body

/-! ## Branches and loops -/

/-- Reads a statement with a condition. -/
def ifStatement (g : Grammar) : Rule Tree := do
  word "if"
  let condition ← g.inParens
  let yes ← g.substatement
  let no ← optional do
    word "else"
    g.substatement
  return .other (condition :: yes :: no.toList)

/-- Reads what a loop runs over, up to the closing parenthesis. -/
def loopSource (g : Grammar) (target : Rule (List Tree)) : Rule (List Tree) := do
  let target ← target
  let _ ← anyWordOf ["of", "in"]
  return target ++ [← g.inner (.expressions true)]

/-- Reads the start, the condition and the step of a loop. -/
def loopCounter (g : Grammar) : Rule (List Tree) := do
  let start ← optional (oneOf [
    do
      return (← g.variableDeclarators false).2,
    do
      return [← g.inner (.expressions false)]])
  mark ";"
  let condition ← optional (g.inner (.expressions true))
  mark ";"
  let step ← optional (g.inner (.expressions true))
  return start.getD [] ++ condition.toList ++ step.toList

/-- Reads a loop that begins with what it runs over or with what it counts. -/
def forStatement (g : Grammar) : Rule Tree := do
  word "for"
  let _ ← optional (word "await")
  mark "("
  let head ← oneOf [
    g.loopSource do
      let _ ← anyWordOf ["var", "let", "const"]
      return (← g.variableDeclarator false).2,
    g.loopSource do
      return [← g.inner .access],
    g.loopSource do
      return [← g.inner .pattern],
    g.loopCounter]
  mark ")"
  return .other (head ++ [← g.substatement])

/-- Reads a loop with its condition in front. -/
def whileStatement (g : Grammar) : Rule Tree := do
  let _ ← anyWordOf ["while", "with"]
  let condition ← g.inParens
  return .other [condition, ← g.substatement]

/-- Reads a loop with its condition behind. -/
def doStatement (g : Grammar) : Rule Tree := do
  word "do"
  let body ← g.substatement
  word "while"
  let condition ← g.inParens
  let _ ← optional (mark ";")
  return .other [body, condition]

/-- Reads a case of a selection. -/
def switchCase (g : Grammar) : Rule (List Tree) := do
  let value ← orElse
    (do
      word "case"
      return [← g.inner (.expressions true)])
    (do
      word "default"
      return [])
  mark ":"
  return value ++ (← many g.substatement)

/-- Reads a selection. -/
def switchStatement (g : Grammar) : Rule Tree := do
  word "switch"
  let value ← g.inParens
  mark "\x7b"
  let cases ← many g.switchCase
  mark "\x7d"
  return .other (value :: cases.flatten)

/-- Reads a block with what handles its failures. -/
def tryStatement (g : Grammar) : Rule Tree := do
  word "try"
  let body ← g.inner .block
  let handler ← optional do
    word "catch"
    let _ ← optional do
      mark "("
      let _ ← g.inner .pattern
      let _ ← optional (g.ifTyped (declaredType g.type))
      mark ")"
    g.inner .block
  let final ← optional do
    word "finally"
    g.inner .block
  check fun _ => handler.isSome || final.isSome
  return .other (body :: handler.toList ++ final.toList)

/-! ## Jumps -/

/-- Reads a return statement. -/
def returnStatement (g : Grammar) : Rule Tree := do
  word "return"
  orElse
    (do
      statementEnd g.dialect .keyword
      return .returnNothing)
    (do
      let value ← g.inner (.expressions true)
      statementEnd g.dialect .expression
      return .returnValue value)

/-- Reads a statement that raises an error. -/
def throwStatement (g : Grammar) : Rule Tree := do
  word "throw"
  let value ← g.inner (.expressions true)
  statementEnd g.dialect .expression
  return .other [value]

/-- Reads a jump out of a statement or to its next round. -/
def breakStatement (g : Grammar) : Rule Tree := do
  let _ ← anyWordOf ["break", "continue", "debugger"]
  orElse (statementEnd g.dialect .keyword) do
    let _ ← name
    g.declarationEnd
  return .other []

/-! ## Imports and exports -/

/-- Reads the name of what is imported or exported, with the name that it gets. -/
def specifier : Rule Unit := do
  let moduleName : Rule Unit := do
    let _ ← orElse anyWord (lexeme Lexeme.string)
  let renamed : Rule Unit := do
    moduleName
    let _ ← optional do
      word "as"
      moduleName
    check fun st => st.atMark "," || st.atMark "\x7d"
  orElse renamed do
    let _ ← anyWordOf ["type", "typeof"]
    renamed

/-- Reads names in braces. -/
def specifiers : Rule Unit := do
  mark "\x7b"
  let _ ← trailingList specifier
  mark "\x7d"

/-- Reads the place that something is imported from. -/
def source (g : Grammar) : Rule Unit := do
  let _ ← lexeme Lexeme.string
  let _ ← optional do
    let _ ← anyWordOf ["with", "assert"]
    g.object
  g.declarationEnd

/-- Reads what is imported from a place. -/
def importClause : Rule Unit :=
  oneOf [
    do
      mark "*"
      word "as"
      let _ ← anyWord,
    specifiers,
    do
      let _ ← name
      let _ ← optional do
        mark ","
        oneOf [
          do
            mark "*"
            word "as"
            let _ ← anyWord,
          specifiers]]

/-- Reads another name for a namespace or for a module. -/
def importAlias (g : Grammar) : Rule Unit := do
  let _ ← anyWord
  mark "="
  let _ ← g.expression
  statementEnd g.dialect .expression

/-- Reads an import. -/
def importStatement (g : Grammar) : Rule Tree := do
  word "import"
  let fromSource : Rule Unit := do
    importClause
    word "from"
    g.source
  oneOf [
    g.source,
    fromSource,
    do
      let _ ← anyWordOf ["type", "typeof"]
      fromSource,
    g.ifTyped g.importAlias,
    g.ifTyped do
      word "type"
      g.importAlias]
  return .other []

/-- Reads an export. A function or enum that is declared right in it is what the statement
declares. -/
def exportStatement (g : Grammar) : Rule Statement := do
  let decorators ← many g.decorator
  word "export"
  oneOf [
    do
      let _ ← optional (g.ifTyped (word "type"))
      mark "*"
      let _ ← optional do
        word "as"
        orElse anyWord (lexeme Lexeme.string)
      word "from"
      g.source
      return .other (.other []),
    do
      let _ ← optional (g.ifTyped (word "type"))
      specifiers
      orElse
        (do
          word "from"
          g.source)
        g.declarationEnd
      return .other (.other []),
    do
      word "default"
      if ← ahead (do let _ ← functionWords; anyWord) then g.functionDeclaration
      else
        oneOf [
          do
            check fun st => st.atWord "class" || st.atWord "abstract" || st.atMark "@"
            g.classDeclaration,
          do
            g.ifTyped g.interfaceDeclaration
            return .other (.other []),
          do
            let value ← g.inner (.expressions true)
            statementEnd g.dialect .expression
            return .other (.other [value])],
    g.ifTyped do
      mark "="
      let value ← g.expression
      statementEnd g.dialect .expression
      return .other (.other [value]),
    g.ifTyped do
      word "as"
      word "namespace"
      let _ ← anyWord
      g.declarationEnd
      return .other (.other []),
    g.ifTyped do
      word "import"
      g.importAlias
      return .other (.other []),
    do
      match ← g.declaration with
      | .other tree => return .other (.other (decorators ++ [tree]))
      | found => return found]

/-! ## Statements -/

/-- Reads a statement with a label. -/
def labeledStatement (g : Grammar) : Rule Tree := do
  let _ ← name
  mark ":"
  return .other [← g.substatement]

/-- Could a brace here begin an object rather than a block? -/
def opensObject (g : Grammar) : Rule Bool :=
  ahead do
    mark "\x7b"
    let _ ← g.propertyName
    anyMarkOf [":", ",", "\x7d"]

/-- Reads a statement that is an expression. -/
def expressionStatement (g : Grammar) : Rule Tree := do
  let opens ← g.opensObject
  check fun st => ! st.atMark "\x7b" || opens
  let value ← g.inner (.expressions true)
  statementEnd g.dialect .expression
  return .other [value]

/-- Reads a statement that declares nothing of interest. -/
def plainStatement (g : Grammar) : Rule Tree :=
  oneOf [
    g.inner .block,
    do
      mark ";"
      return .other [],
    g.ifStatement, g.forStatement, g.whileStatement, g.doStatement, g.switchStatement,
    g.tryStatement, g.returnStatement, g.throwStatement, g.breakStatement, g.importStatement,
    g.labeledStatement, g.expressionStatement]

/-- Reads a statement. -/
def wholeStatement (g : Grammar) : Rule Statement :=
  oneOf [
    g.declaration,
    g.exportStatement,
    do
      return .other (← g.plainStatement)]

end CustomFunctions.Script.Grammar
