import CustomFunctions.Script.Gap
import CustomFunctions.Script.Tree

/-!
# Statements

A statement at the top level of a script as far as declarations can be read off it: functions and
enums keep their parts, and of all other statements there is a tree.
-/

namespace CustomFunctions.Script

/-- The declaration of a function with a body. -/
structure FunctionStatement where
  name : List Char
  isAsync : Bool
  parameters : List ParameterDecl
  returnType? : Option TypeExpr
  body : Tree
  /-- The line of its first word. -/
  line : Nat

/-- What stands in the braces of an enum. -/
inductive EnumItem where
  | comment (c : Comment)
  /-- A member with its initial value, if one is written. -/
  | member (name : String) (initializer : Option Tree)

/-- The declaration of an enum. -/
structure EnumStatement where
  name : List Char
  items : List EnumItem
  /-- The line of its first word. -/
  line : Nat

/-- A statement. -/
inductive Statement where
  | function (f : FunctionStatement)
  | enumeration (e : EnumStatement)
  | other (tree : Tree)

/-- The tree of a statement inside a function. -/
def Statement.tree : Statement → Tree
  | function f => .scope [f.body]
  | enumeration _ => .other []
  | other tree => tree

end CustomFunctions.Script
