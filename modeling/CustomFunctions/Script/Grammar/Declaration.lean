import CustomFunctions.Script.Grammar.Expression
import CustomFunctions.Script.Literal
import CustomFunctions.Script.Statement

/-!
# Declarations in scripts

The rules for statements that declare functions, classes, variables, enums, types and namespaces.
-/

namespace CustomFunctions.Script.Grammar

open Rule

/-- Reads the declaration of a function. Where types are written, the body may be missing; then only
the type of the function is declared. -/
def functionDeclaration (g : Grammar) : Rule Statement := do
  let line := (← state).line
  let isAsync ← functionWords
  let name ← binding g.dialect
  let head ← g.functionHead
  choose (fun st => g.typed && ! st.atMark "\x7b")
    (do
      g.declarationEnd
      return .other (.other []))
    (do
      let body ← g.inner .block
      return .function
        { name, isAsync, parameters := head.parameters, returnType? := head.returnType?, body, line })

/-- Reads the declaration of a class. -/
def classDeclaration (g : Grammar) : Rule Statement := do
  let decorators ← many g.decorator
  let isAbstract ← optional (g.ifTyped (word "abstract"))
  word "class"
  let parts ← g.classRest
  return .other (if isAbstract.isSome then .abstractClass (decorators ++ parts)
    else .scope (decorators ++ parts))

/-! ## Enums -/

/-- Reads the name of a member of an enum, and tells whether it can stand without a value. -/
def enumMemberName (g : Grammar) : Rule (String × Bool) := do
  let start ← state
  let (_, text, _) ← spanned g.propertyName
  if start.word ≠ [] then return (String.ofList text, true)
  if Lexeme.string start.rest ≠ 0 then return (stringValue text, true)
  return (String.ofList text, false)

/-- Reads a member of an enum with the comments around it. -/
def enumMember (g : Grammar) : Rule (List EnumItem) := do
  let before := (← state).gap.comments
  let (name, standsAlone) ← g.enumMemberName
  let value ← optional (g.initializer true)
  let behind := (← state).gap.comments
  let members := if value.isSome || standsAlone then [EnumItem.member name value] else []
  return before.map .comment ++ members ++ behind.map .comment

/-- Reads the declaration of an enum. -/
def enumDeclaration (g : Grammar) : Rule Statement := do
  let line := (← state).line
  let _ ← optional (word "const")
  word "enum"
  let name ← anyWord
  mark "\x7b"
  let items ← trailingList g.enumMember
  mark "\x7d"
  return .enumeration { name, items := items.flatten, line }

/-! ## Variables -/

/-- Reads a variable with its initial value, and tells whether it has one. -/
def variableDeclarator (g : Grammar) (withIn : Bool) : Rule (Bool × List Tree) := do
  let target ← g.inner .pattern
  let _ ← optional (g.ifTyped do
    let _ ← optional (mark "!")
    declaredType g.type)
  let value ← optional (g.initializer withIn)
  return (value.isSome, target :: value.toList)

/-- Reads the declaration of variables up to its end: whether the last one has a value, and the
trees. -/
def variableDeclarators (g : Grammar) (withIn : Bool) : Rule (Bool × List Tree) := do
  let _ ← anyWordOf ["var", "let", "const"]
  let list ← commaList (g.variableDeclarator withIn)
  return (list.getLast?.any (·.1), list.flatMap (·.2))

/-- Reads the declaration of variables. -/
def variableDeclaration (g : Grammar) : Rule Statement := do
  let (hasValue, parts) ← g.variableDeclarators true
  if hasValue then statementEnd g.dialect .expression else g.declarationEnd
  return .other (.other parts)

/-! ## Types and namespaces -/

/-- Reads the declaration of a name for a type. -/
def typeDeclaration (g : Grammar) : Rule Unit := do
  word "type"
  let _ ← anyWord
  let _ ← optional g.typeParameters
  mark "="
  g.type
  g.declarationEnd

/-- Reads the declaration of an interface. -/
def interfaceDeclaration (g : Grammar) : Rule Unit := do
  word "interface"
  let _ ← anyWord
  let _ ← optional g.typeParameters
  let _ ← optional do
    word "extends"
    commaList g.type
  g.objectType

/-- Reads the declaration of a namespace. -/
def namespaceDeclaration (g : Grammar) : Rule Tree := do
  let _ ← anyWordOf ["namespace", "module"]
  check (·.sameLine)
  orElse qualifiedName (do let _ ← lexeme Lexeme.string)
  choose (·.atMark "\x7b")
    (do
      return .other [← g.inner .block])
    (do
      g.declarationEnd
      return .other [])

/-- Reads a declaration of what exists elsewhere. -/
def ambientDeclaration (g : Grammar) : Rule Tree := do
  word "declare"
  choose (·.atWord "global")
    (do
      word "global"
      g.inner .block)
    (g.inner .statement)

/-- Reads a declaration that only a dialect with types has. -/
def typedDeclaration (g : Grammar) : Rule Statement :=
  g.ifTyped (oneOf [
    g.enumDeclaration,
    do
      g.typeDeclaration
      return .other (.other []),
    do
      g.interfaceDeclaration
      return .other (.other []),
    do
      return .other (← g.namespaceDeclaration),
    do
      return .other (← g.ambientDeclaration)])

/-- Reads a declaration. -/
def declaration (g : Grammar) : Rule Statement := do
  if ← ahead (do let _ ← functionWords; anyWord) then g.functionDeclaration
  else oneOf [g.typedDeclaration, g.classDeclaration, g.variableDeclaration]

end CustomFunctions.Script.Grammar
