import CustomFunctions.TypeExpr.Basic

/-!
# Printing type expressions

The text by which diagnostics show a type. A union or a function type in an array is put in
parentheses.
-/

namespace CustomFunctions.TypeExpr

/-- The word for a literal type. -/
def literalText : LiteralKind → String
  | .boolean => "boolean literal"
  | .number => "number literal"
  | .string => "string literal"

/-- Does the type need parentheses before array brackets? -/
def needsParens : TypeExpr → Bool
  | .union _ => true
  | .function => true
  | _ => false

mutual

/-- The text of a type. -/
def text : TypeExpr → String
  | .named name => name
  | .generic name args => name ++ "<" ++ ", ".intercalate (texts args) ++ ">"
  | .array element =>
    if element.needsParens then "(" ++ text element ++ ")[]" else text element ++ "[]"
  | .union members => " | ".intercalate (texts members)
  | .tuple members => "[" ++ ", ".intercalate (texts members) ++ "]"
  | .literal kind => literalText kind
  | .object => "\x7b...\x7d"
  | .function => "function"
  | .variadic inner => "..." ++ text inner
  | .optional inner => text inner ++ "="
  | .invalid written => written

/-- The texts of several types. -/
def texts : List TypeExpr → List String
  | [] => []
  | e :: rest => text e :: texts rest

end

end CustomFunctions.TypeExpr
