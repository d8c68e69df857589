import CustomFunctions.Number.Digits
import CustomFunctions.Script.Tree
import CustomFunctions.Text.Casing

/-!
# The values of literals

The value of a number or string literal of a script, from its source text, and the constant value of
an expression made of literals, signs and parentheses.
-/

namespace CustomFunctions.Script

/-- The text between the quotation marks of a literal. -/
def unquoted (text : List Char) : List Char :=
  if text.length < 2 then text else text.tail.dropLast

/-- The text with its escapes resolved: line feed, tabulator and carriage return have letters of
their own, and a backslash before any other character stands for that character. -/
def unescape : List Char → List Char
  | [] => []
  | '\\' :: 'n' :: rest => '\n' :: unescape rest
  | '\\' :: 't' :: rest => '\t' :: unescape rest
  | '\\' :: 'r' :: rest => '\r' :: unescape rest
  | '\\' :: c :: rest => c :: unescape rest
  | ['\\'] => []
  | c :: rest => c :: unescape rest

/-- The value of a string literal. -/
def stringValue (text : List Char) : String :=
  String.ofList (unescape (unquoted text))

/-- The number in a base that a prefix announces, if the text begins with the prefix and its digits
are in the base and fit sixty-four bits. -/
def radixValue? (letter : Char) (base : Nat) : List Char → Option Binary64
  | '0' :: c :: digits =>
    if c = letter then
      match Digits.read? base digits with
      | some n => if n < Nat.pow 2 64 then some (Binary64.ofNat n) else none
      | none => none
    else none
  | _ => none

/-- The exponent of ten at the end of a decimal; zero if nothing is left, none if something else
is. -/
def decimalExponent? : List Char → Option Int
  | [] => some 0
  | 'e' :: '-' :: digits => (Digits.read? 10 digits).map fun n => -(n : Int)
  | 'e' :: '+' :: digits => (Digits.read? 10 digits).map fun n => (n : Int)
  | 'e' :: digits => (Digits.read? 10 digits).map fun n => (n : Int)
  | _ => none

/-- The number that a decimal stands for: digits with or without a point among, before or behind
them, and an exponent. -/
def decimalValue? (text : List Char) : Option Binary64 :=
  let whole := text.takeWhile Char.isDigit
  let rest := text.dropWhile Char.isDigit
  let (fraction, rest) :=
    match rest with
    | '.' :: rest => (rest.takeWhile Char.isDigit, rest.dropWhile Char.isDigit)
    | rest => ([], rest)
  if whole ++ fraction = [] then none
  else
    (decimalExponent? rest).map fun e =>
      Binary64.ofDecimal false (Digits.natOf (whole ++ fraction)) (e - (fraction.length : Int))

/-- The value of a number literal. Underscores between digits do not count, nor does the case of
letters. Integers of arbitrary size have no value. -/
def numberValue? (text : List Char) : Option Binary64 :=
  let lowered := Text.lower (text.filter (· ≠ '_'))
  (radixValue? 'x' 16 lowered).or
    ((radixValue? 'o' 8 lowered).or
      ((radixValue? 'b' 2 lowered).or (decimalValue? lowered)))

/-- Does the text hold the start of a substitution? -/
def hasSubstitution : List Char → Bool
  | '$' :: '{' :: _ => true
  | _ :: rest => hasSubstitution rest
  | [] => false

namespace Tree

/-- The literal with a sign, which only a number can have. -/
def signed (operator : List Char) : Literal → Option Literal
  | .number x =>
    if operator = ['-'] then some (.number x.neg)
    else if operator = ['+'] then some (.number x)
    else none
  | _ => none

/-- The constant value of an expression. -/
def constant? : Tree → Option Literal
  | boolean b => some (.boolean b)
  | number text => (numberValue? text).map .number
  | string text => some (.string (stringValue text))
  | template text _ => if hasSubstitution text then none else some (.string (stringValue text))
  | parens inner => inner.constant?
  | unary operator argument => argument.constant?.bind (signed operator)
  | _ => none

end Tree

end CustomFunctions.Script
