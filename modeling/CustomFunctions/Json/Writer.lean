import CustomFunctions.Json.Basic
import CustomFunctions.Json.NumberText
import CustomFunctions.Json.Quoted

/-!
# Writing JSON

Two written forms of a value: the compact one without blanks, and the one that gives every item a
line of its own, indented by two blanks for each level.
-/

namespace CustomFunctions.Json

mutual

/-- The compact form of a value. -/
def compactChars : Json → List Char
  | .null => "null".toList
  | .bool b => if b then "true".toList else "false".toList
  | .int i => intChars i
  | .real x => realChars x
  | .string s => Quoted.quote s.toList
  | .array items => '[' :: (List.intercalate [','] (compactItems items) ++ [']'])
  | .object fields => '{' :: (List.intercalate [','] (compactFields fields) ++ ['}'])

/-- The compact forms of the items of an array. -/
def compactItems : List Json → List (List Char)
  | [] => []
  | v :: rest => compactChars v :: compactItems rest

/-- The compact forms of the fields of an object. -/
def compactFields : List (String × Json) → List (List Char)
  | [] => []
  | (k, v) :: rest => (Quoted.quote k.toList ++ ':' :: compactChars v) :: compactFields rest

end

/-- A line feed and the indentation of the given level. -/
def newLine (level : Nat) : List Char :=
  '\n' :: List.replicate (2 * level) ' '

/-- Items of one level between their brackets, each on a line of its own. -/
def block (level : Nat) (opening closing : Char) (items : List (List Char)) : List Char :=
  if items = [] then [opening, closing]
  else
    opening :: (List.intercalate [','] (items.map (newLine (level + 1) ++ ·))
      ++ newLine level ++ [closing])

mutual

/-- The indented form of a value that stands at the given level. -/
def prettyChars (level : Nat) : Json → List Char
  | .null => "null".toList
  | .bool b => if b then "true".toList else "false".toList
  | .int i => intChars i
  | .real x => realChars x
  | .string s => Quoted.quote s.toList
  | .array items => block level '[' ']' (prettyItems (level + 1) items)
  | .object fields => block level '{' '}' (prettyFields (level + 1) fields)

/-- The indented forms of the items of an array. -/
def prettyItems (level : Nat) : List Json → List (List Char)
  | [] => []
  | v :: rest => prettyChars level v :: prettyItems level rest

/-- The indented forms of the fields of an object. -/
def prettyFields (level : Nat) : List (String × Json) → List (List Char)
  | [] => []
  | (k, v) :: rest =>
    (Quoted.quote k.toList ++ ':' :: ' ' :: prettyChars level v) :: prettyFields level rest

end

/-- The compact form of a value as a string. -/
def compact (v : Json) : String :=
  String.ofList (compactChars v)

/-- The indented form of a value as a string. -/
def pretty (v : Json) : String :=
  String.ofList (prettyChars 0 v)

end CustomFunctions.Json
