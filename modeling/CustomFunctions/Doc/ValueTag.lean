import CustomFunctions.Doc.TypeBlock

/-!
# Tags that describe a parameter or the result

The value of a parameter tag is a type block, which may be missing, the name of the parameter and a
description. A name in square brackets marks an optional parameter and may carry a default value.
The value of a result tag is a type block, which may be missing, and a description.
-/

namespace CustomFunctions

/-- What a parameter tag says. -/
structure ParamTag where
  typeText : Option String
  name : String
  optional : Bool
  defaultText : Option String
  description : String
deriving DecidableEq, Inhabited

/-- What a result tag says. -/
structure ReturnsTag where
  typeText : Option String
  description : String
deriving DecidableEq, Inhabited

namespace ParamTag

/-- The text before the first `mark` and the text behind it, if the mark occurs. -/
def cutAt? (mark : Char) : List Char → Option (List Char × List Char)
  | [] => none
  | c :: rest =>
    if c = mark then some ([], rest)
    else (cutAt? mark rest).map fun (before, after) => (c :: before, after)

/-- The name in brackets with its default value, and the text behind the brackets. -/
def bracketed? (inner : List Char) : Option (List Char × Option (List Char) × List Char) :=
  (cutAt? ']' inner).map fun (content, after) =>
    match cutAt? '=' content with
    | some (name, value) => (Text.trim name, some (Text.trim value), after)
    | none => (Text.trim content, none, after)

/-- What the value of a parameter tag says; none if it names no parameter. -/
def read? (value : String) : Option ParamTag :=
  let (typeText, rest) := TypeBlock.split value.toList
  let found : Option (Bool × List Char × Option (List Char) × List Char) :=
    match Text.trimStart rest with
    | '[' :: inner => (bracketed? inner).map fun (name, value, after) => (true, name, value, after)
    | rest => some (false, rest.takeWhile (! Text.isBlank ·), none,
        rest.dropWhile (! Text.isBlank ·))
  match found with
  | some (optional, name, defaultText, after) =>
    if name = [] then none
    else
      some {
        typeText := typeText.map String.ofList
        name := String.ofList name
        optional
        defaultText := defaultText.map String.ofList
        description := String.ofList (TypeBlock.description after) }
  | none => none

end ParamTag

/-- What the value of a result tag says. -/
def ReturnsTag.read (value : String) : ReturnsTag :=
  let (typeText, rest) := TypeBlock.split value.toList
  { typeText := typeText.map String.ofList
    description := String.ofList (TypeBlock.description rest) }

end CustomFunctions
