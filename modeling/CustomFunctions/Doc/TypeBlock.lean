import CustomFunctions.Text.Blank

/-!
# Type blocks

The value of a tag may begin with a type in braces, which may hold further braces.
-/

namespace CustomFunctions.TypeBlock

/-- The text up to the brace that closes the block, and the text behind that brace. `depth` counts
the inner braces that are open. -/
def body? (depth : Nat) : List Char → Option (List Char × List Char)
  | [] => none
  | c :: rest =>
    if c = '}' then
      match depth with
      | 0 => some ([], rest)
      | depth + 1 => (body? depth rest).map fun (inner, after) => (c :: inner, after)
    else if c = '{' then (body? (depth + 1) rest).map fun (inner, after) => (c :: inner, after)
    else (body? depth rest).map fun (inner, after) => (c :: inner, after)

/-- The type in the block that a tag value begins with, if it does, and the text behind the block.
A block that is never closed takes the whole text, so that its type can be reported. -/
def split (value : List Char) : Option (List Char) × List Char :=
  match Text.trimStart value with
  | '{' :: rest =>
    match body? 0 rest with
    | some (inner, after) => (some (Text.trim inner), Text.trimStart after)
    | none => (some (Text.trim rest), [])
  | rest => (none, rest)

/-- A description without the blanks around it and without the hyphen that may set it off. -/
def description (text : List Char) : List Char :=
  Text.trim
    (match Text.trim text with
    | '-' :: ' ' :: rest => rest
    | '-' :: rest => rest
    | rest => rest)

end CustomFunctions.TypeBlock
