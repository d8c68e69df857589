import CustomFunctions.Doc.Comment
import CustomFunctions.Number.Binary64
import CustomFunctions.TypeExpr.Basic

/-!
# Declarations

The declarations of one source file, as far as custom functions are concerned: its top-level
functions and enums with their doc comments. They are the same for every dialect.
-/

namespace CustomFunctions

/-- The dialect of a source file. -/
inductive Language where
  | typeScript
  | javaScript
deriving DecidableEq, Inhabited

/-- A literal as its value. -/
inductive Literal where
  | number (x : Binary64)
  | string (s : String)
  | boolean (b : Bool)
deriving DecidableEq, Inhabited

/-- The shape of the expression that a return statement delivers. -/
inductive ReturnHint where
  | boolean
  | number
  | string
  /-- An array literal; `nested` if it has elements and all of them are array literals. -/
  | array (nested : Bool)
  | object
  /-- A return statement without an expression. -/
  | empty
  /-- An expression that is no literal. -/
  | unknown
deriving DecidableEq, Inhabited

/-- A formal parameter. -/
structure ParameterDecl where
  name : String
  type? : Option TypeExpr := none
  /-- Marked as optional in the code. -/
  optional : Bool := false
  hasDefault : Bool := false
  /-- Takes all remaining arguments. -/
  rest : Bool := false
  line : Nat := 0
deriving Inhabited

/-- A function declaration. -/
structure FunctionDecl where
  name : String
  doc : Option DocComment
  parameters : List ParameterDecl
  returnType? : Option TypeExpr
  isAsync : Bool
  /-- The shapes of what the function's own return statements deliver, in order. -/
  returnHints : List ReturnHint
  line : Nat
deriving Inhabited

/-- A member of an enum declaration. -/
structure EnumMemberDecl where
  name : String
  /-- The constant value, written or counted; none if there is no such value. -/
  value : Option Literal
  doc : Option DocComment
deriving DecidableEq, Inhabited

/-- An enum declaration. -/
structure EnumDecl where
  name : String
  doc : Option DocComment
  members : List EnumMemberDecl
  line : Nat
deriving DecidableEq, Inhabited

/-- The declarations of one source file. -/
structure SourceUnit where
  path : String
  language : Language
  functions : List FunctionDecl
  enums : List EnumDecl
deriving Inhabited

namespace SourceUnit

/-- The path with every backslash turned into a slash. -/
def displayPath (unit : SourceUnit) : String :=
  unit.path.map fun c => if c = '\\' then '/' else c

end SourceUnit

end CustomFunctions
