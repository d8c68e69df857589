import CustomFunctions.Script.Grammar.Type

/-!
# Functions and classes

What functions, methods and arrow functions have in common, and the rules for classes.
-/

namespace CustomFunctions.Script

/-- What stands between the name of a function and its body. -/
structure FunctionHead where
  parameters : List ParameterDecl
  /-- The trees of the parameters. -/
  parts : List Tree
  returnType? : Option TypeExpr

namespace Grammar

open Rule

/-- Reads the parameters of a function and what may stand around them. -/
def functionHead (g : Grammar) : Rule FunctionHead := do
  let _ ← optional (g.ifTyped g.typeParameters)
  let (parameters, parts) ← g.parameters
  let returnType? ← optional (g.ifTyped (declaredType g.returnType))
  return { parameters, parts, returnType? }

/-- Reads the parameters and the body of a function. -/
def functionRest (g : Grammar) : Rule Tree := do
  let head ← g.functionHead
  let body ← g.inner .block
  return .scope (head.parts ++ [body])

/-- Reads the words that a function begins with, and tells whether it is asynchronous. -/
def functionWords : Rule Bool := do
  let asyncWord ← optional do
    word "async"
    check (·.sameLine)
  word "function"
  let _ ← optional (mark "*")
  return asyncWord.isSome

/-- Reads an expression that is a function. -/
def functionExpression (g : Grammar) : Rule Tree := do
  let _ ← functionWords
  let _ ← optional (binding g.dialect)
  g.functionRest

/-- Reads the parameters of an arrow function. -/
def arrowParameters (g : Grammar) : Rule (List Tree) :=
  orElse
    (do
      let _ ← name
      check (·.atMark "=>")
      return [])
    (do
      return (← g.functionHead).parts)

/-- Reads an arrow function. -/
def arrow (g : Grammar) (withIn : Bool) : Rule Tree := do
  let parts ← orElse
    (do
      word "async"
      check (·.sameLine)
      g.arrowParameters)
    g.arrowParameters
  mark "=>"
  let body ← choose (·.atMark "\x7b") (g.inner .block) (g.inner (.expression withIn))
  return .scope (parts ++ [body])

/-- Reads the end of a declaration that ends with a name or a type. -/
def declarationEnd (g : Grammar) : Rule Unit :=
  statementEnd g.dialect (if g.typed then .type else .expression)

/-- Reads the rest of a field of a class. -/
def fieldRest (g : Grammar) : Rule (List Tree) := do
  let _ ← optional (g.ifTyped (declaredType g.type))
  let value ← optional (g.initializer true)
  if value.isSome then statementEnd g.dialect .expression else g.declarationEnd
  return value.toList

/-- Reads the rest of a method. Where types are written, the body may be missing. -/
def methodRest (g : Grammar) : Rule (List Tree) := do
  let head ← g.functionHead
  choose (fun st => g.typed && ! st.atMark "\x7b")
    (do
      g.declarationEnd
      return [])
    (do
      return [.scope (head.parts ++ [← g.inner .block])])

/-- Reads a member of a class. -/
def classMember (g : Grammar) : Rule (List Tree) :=
  oneOf [
    do
      mark ";"
      return [],
    do
      word "static"
      return [← g.inner .block],
    do
      g.ifTyped g.indexSignature
      g.declarationEnd
      return [],
    do
      let decorators ← many g.decorator
      let _ ← modifiers memberModifiers "\"'[#*".toList
      let _ ← optional (mark "*")
      let name ← g.propertyName
      let _ ← optional (g.ifTyped (anyMarkOf ["?", "!"]))
      return decorators ++ name
        ++ (← choose (fun st => st.atMark "(" || st.atMark "<") g.methodRest g.fieldRest)]

/-- Reads a class behind its first word: its trees. -/
def classRest (g : Grammar) : Rule (List Tree) := do
  let _ ← optional do
    check fun st => ! st.atWord "extends" && ! st.atWord "implements"
    binding g.dialect
  let _ ← optional (g.ifTyped g.typeParameters)
  let base ← optional do
    word "extends"
    let e ← g.inner .access
    let _ ← optional (g.ifTyped g.typeArguments)
    return e
  let _ ← optional (g.ifTyped do
    word "implements"
    commaList g.type)
  mark "\x7b"
  let members ← many g.classMember
  mark "\x7d"
  return base.toList ++ members.flatten

/-- Reads an expression that is a class. -/
def classExpression (g : Grammar) : Rule Tree := do
  let decorators ← many g.decorator
  word "class"
  return .scope (decorators ++ (← g.classRest))

end Grammar

end CustomFunctions.Script
