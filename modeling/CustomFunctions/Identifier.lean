/-!
# Identifiers of the host

The ids and names that the host accepts. All of them are ASCII and at most 128 characters long.
-/

namespace CustomFunctions.Identifier

/-- The greatest length of an identifier. -/
def maxLength : Nat := 128

/-- May `c` stand in an enum name behind its first letter? -/
def isEnumNameChar (c : Char) : Bool :=
  c.isAlphanum || c = '_'

/-- May `c` stand in a function id behind its first character? -/
def isFunctionIdChar (c : Char) : Bool :=
  c.isAlphanum || c = '_' || c = '.'

/-- An enum name is a letter and up to 127 letters, digits and underscores. -/
def isEnumName (name : String) : Bool :=
  match name.toList with
  | [] => false
  | c :: rest => c.isAlpha && rest.all isEnumNameChar && rest.length < maxLength

/-- A function id or name is a letter or underscore and up to 127 letters, digits, underscores and
periods. -/
def isFunctionId (name : String) : Bool :=
  match name.toList with
  | [] => false
  | c :: rest => (c.isAlpha || c = '_') && rest.all isFunctionIdChar && rest.length < maxLength

end CustomFunctions.Identifier
