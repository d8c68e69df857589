import CustomFunctions.Script.Grammar.Pattern

/-!
# Types in scripts

The rules for types. Nothing but the text of a type counts, and the rules only find out where it
ends. A type that follows an expression must not go on behind a line break, since a bracket there
begins a new statement or member.
-/

namespace CustomFunctions.Script.Grammar

open Rule

/-- Reads a type. -/
def type (g : Grammar) : Rule Unit :=
  g.skim .type

/-- Reads the types that a generic type is applied to. -/
def typeArguments (g : Grammar) : Rule Unit := do
  mark "<"
  let _ ← trailingList g.type
  char '>'

/-- Reads the declaration of a type parameter. -/
def typeParameter (g : Grammar) : Rule Unit := do
  let _ ← modifiers ["const", "in", "out"] []
  let _ ← anyWord
  let _ ← optional do word "extends"; g.type
  let _ ← optional do char '='; g.type

/-- Reads the declarations of type parameters. -/
def typeParameters (g : Grammar) : Rule Unit := do
  mark "<"
  let _ ← trailingList g.typeParameter
  char '>'

/-- Reads the type of what a function returns, which may also be a statement on its argument. -/
def returnType (g : Grammar) : Rule Unit :=
  oneOf [
    do
      word "asserts"
      check (! ·.atWord "is")
      let _ ← anyWord
      let _ ← optional do word "is"; g.type,
    do
      let _ ← anyWord
      check (·.sameLine)
      word "is"
      g.type,
    g.type]

/-- Reads the parameters and the return type of a function without a body. -/
def callSignature (g : Grammar) : Rule Unit := do
  let _ ← optional g.typeParameters
  let _ ← g.parameters
  let _ ← optional (declaredType g.returnType)

/-- Reads the type of a function or of a constructor. -/
def functionType (g : Grammar) : Rule Unit := do
  let _ ← optional (word "abstract")
  let _ ← optional (word "new")
  let _ ← optional g.typeParameters
  let _ ← g.parameters
  mark "=>"
  g.returnType

/-- Reads the mark of an optional member. In a mapped type it may have a sign. -/
def optionalMark : Rule Unit := do
  let _ ← optional (anyMarkOf ["+", "-"])
  mark "?"

/-- Reads the signature of members by index, or of a mapped type. -/
def indexSignature (g : Grammar) : Rule Unit := do
  let _ ← optional (anyMarkOf ["+", "-"])
  let _ ← modifiers ["readonly", "static"] ['[']
  mark "["
  let _ ← anyWord
  oneOf [
    do
      mark ":"
      g.type,
    do
      word "in"
      g.type
      let _ ← optional do word "as"; g.type]
  mark "]"
  let _ ← optional optionalMark
  let _ ← optional do mark ":"; g.type

/-- The words that may stand before the name of a member. -/
def memberModifiers : List String :=
  ["public", "private", "protected", "override", "readonly", "static", "abstract", "declare",
    "accessor", "async", "get", "set"]

/-- Reads a member of an object type. -/
def typeMember (g : Grammar) : Rule Unit :=
  oneOf [
    g.indexSignature,
    do
      word "new"
      g.callSignature,
    g.callSignature,
    do
      let _ ← modifiers memberModifiers "\"'[#".toList
      let _ ← g.propertyName
      let _ ← optional (mark "?")
      orElse g.callSignature do
        let _ ← optional (declaredType g.type)]

/-- Reads an object type. -/
def objectType (g : Grammar) : Rule Unit := do
  mark "\x7b"
  let _ ← optional (anyMarkOf [",", ";"])
  let _ ← many do
    g.typeMember
    orElse (mark ",") (statementEnd g.dialect .type)
  mark "\x7d"

/-- Reads a member of a tuple type. -/
def tupleMember (g : Grammar) : Rule Unit := do
  let _ ← optional (mark "...")
  orElse
    (do
      let _ ← anyWord
      let _ ← optional (mark "?")
      mark ":"
      g.type)
    (do
      g.type
      let _ ← optional (mark "?"))

/-- Reads a name with qualifiers. -/
def qualifiedName : Rule Unit := do
  let _ ← list (do let _ ← anyWord) (mark ".")

/-- The words that stand for operators on types. -/
def typeOperators : List String :=
  ["keyof", "readonly", "unique", "infer", "typeof"]

/-- The reserved words that are names of types. -/
def typeWords : List String :=
  ["void", "this", "true", "false", "null"]

/-- Reads a name of a type with what it is applied to. -/
def namedType (g : Grammar) : Rule Unit := do
  check fun st => ! typeOperators.any st.atWord
  let _ ← orElse (anyWordOf typeWords) name
  let _ ← many do
    mark "."
    let _ ← anyWord
  let _ ← optional g.typeArguments

/-- Reads a type that no operator is applied to. -/
def primaryType (g : Grammar) : Rule Unit :=
  oneOf [
    do
      mark "("
      g.type
      mark ")",
    do
      mark "["
      let _ ← trailingList g.tupleMember
      mark "]",
    g.objectType,
    do
      let _ ← templateOf do
        g.type
        return .other [],
    do
      let _ ← lexeme Lexeme.string,
    do
      let _ ← optional (anyMarkOf ["-", "+"])
      let _ ← lexeme Lexeme.number,
    do
      word "import"
      mark "("
      let _ ← commaList g.expression
      mark ")"
      let _ ← many do
        mark "."
        let _ ← anyWord
      let _ ← optional g.typeArguments,
    do
      word "typeof"
      orElse (do word "import"; let _ ← g.inParens) (do let _ ← anyWord)
      let _ ← many do
        mark "."
        let _ ← memberName
      let _ ← optional g.typeArguments,
    mark "*",
    do
      mark "?"
      g.skim .typeOperand,
    g.namedType]

/-- Reads a type that is no union. -/
def typeOperand (g : Grammar) : Rule Unit :=
  oneOf [
    g.functionType,
    do
      let _ ← anyWordOf ["keyof", "readonly", "unique"]
      g.skim .typeOperand,
    do
      word "infer"
      let _ ← anyWord
      let _ ← optional do
        word "extends"
        g.skim .typeOperand
        check (! ·.atMark "?"),
    do
      g.primaryType
      let _ ← many do
        check (·.sameLine)
        mark "["
        let _ ← optional g.type
        mark "]"]

/-- Reads operands of unions and intersections. -/
def unionType (g : Grammar) : Rule Unit := do
  let _ ← optional (anyMarkOf ["|", "&"])
  let _ ← list (g.skim .typeOperand) (do let _ ← anyMarkOf ["|", "&"])

/-- Reads a type. A type may depend on a condition. -/
def wholeType (g : Grammar) : Rule Unit := do
  g.unionType
  let _ ← optional do
    word "extends"
    g.unionType
    mark "?"
    g.type
    mark ":"
    g.type

end CustomFunctions.Script.Grammar
