import CustomFunctions.Declaration

/-!
# Syntax trees of scripts

The syntax tree of a piece of a script, as far as return statements and constant values can be read
off it. Literals keep their source text, and whatever else is no function or class is a node with
its parts.

## Main definitions

- `Tree` — a syntax tree
- `Tree.hints` — the shapes of what the return statements in a function body deliver
-/

namespace CustomFunctions.Script

/-- A syntax tree. -/
inductive Tree where
  | boolean (b : Bool)
  | number (text : List Char)
  | string (text : List Char)
  /-- A template with the expressions in it. -/
  | template (text : List Char) (parts : List Tree)
  | object (members : List Tree)
  | array (elements : List Tree)
  | parens (inner : Tree)
  | unary (operator : List Char) (argument : Tree)
  /-- A name, or an access to a member: what can be assigned to. -/
  | place (parts : List Tree)
  /-- A return statement that delivers nothing. -/
  | returnNothing
  | returnValue (value : Tree)
  /-- A function, a method, or a class that is not abstract, with all that is inside it. -/
  | scope (contents : List Tree)
  /-- An abstract class with all that is inside it. -/
  | abstractClass (contents : List Tree)
  /-- Any other statement or expression with its parts. -/
  | other (parts : List Tree)
deriving Inhabited

namespace Tree

def isArray : Tree → Bool
  | array _ => true
  | _ => false

def isNumber : Tree → Bool
  | number _ => true
  | _ => false

/-- Can the expression stand on the left of an assignment? -/
def isAssignable : Tree → Bool
  | place _ => true
  | array _ => true
  | object _ => true
  | parens _ => true
  | _ => false

/-- The shape of an expression. -/
def shape : Tree → ReturnHint
  | boolean _ => .boolean
  | number _ => .number
  | string _ => .string
  | template _ _ => .string
  | object _ => .object
  | array elements => .array (elements ≠ [] && elements.all isArray)
  | parens inner => inner.shape
  | unary operator argument =>
    if operator = ['!'] then .boolean
    else if (operator = ['-'] || operator = ['+']) && argument.isNumber then .number
    else .unknown
  | _ => .unknown

mutual

/-- The shapes of what the return statements of a tree deliver, in order. What stands inside another
function or class belongs to that one, and a return statement inside a returned expression could
only stand there. An abstract class is walked through like any other statement. -/
def hints : Tree → List ReturnHint
  | returnNothing => [.empty]
  | returnValue value => [value.shape]
  | scope _ => []
  | abstractClass contents => hintsAll contents
  | template _ parts => hintsAll parts
  | object members => hintsAll members
  | array elements => hintsAll elements
  | parens inner => hints inner
  | unary _ argument => hints argument
  | place parts => hintsAll parts
  | other parts => hintsAll parts
  | boolean _ => []
  | number _ => []
  | string _ => []

/-- The shapes for several trees. -/
def hintsAll : List Tree → List ReturnHint
  | [] => []
  | t :: rest => hints t ++ hintsAll rest

end

end Tree

end CustomFunctions.Script
