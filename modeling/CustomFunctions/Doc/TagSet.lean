import CustomFunctions.Doc.Comment
import CustomFunctions.Doc.TagKind

/-!
# The tags of a comment

A tag begins at a marker line: a line whose first character that is no blank is `@`, followed by an
ASCII letter. Its value is the rest of that line and all lines up to the next marker line. The lines
before the first marker line are the description, so every line belongs to exactly one of the
description and the tags. An `@` inside a line begins no tag.

## Main definitions

- `Tag`, `TagSet` — a tag with its value, and a comment as a description and its tags
- `TagSet.ofComment` — the description and the tags of a comment
-/

namespace CustomFunctions

/-- A tag of a comment. -/
structure Tag where
  /-- The canonical name of a tag that has a meaning, the name as written of any other tag. -/
  name : String
  kind : Option TagKind
  /-- The text behind the name, without the blanks around it. -/
  value : String
  /-- The source line of the marker. -/
  line : Nat
deriving DecidableEq, Inhabited

/-- A comment as its description and its tags in order. -/
structure TagSet where
  description : String
  tags : List Tag
deriving DecidableEq, Inhabited

namespace Tag

/-- May `c` stand in a tag name behind its first letter? -/
def isNameChar (c : Char) : Bool :=
  c.isAlphanum || c = '_' || c = '-'

/-- The tag name that a marker line begins with and the text behind it; none for other lines. -/
def marker? (line : List Char) : Option (List Char × List Char) :=
  match Text.trimStart line with
  | '@' :: c :: rest =>
    if c.isAlpha then
      some ((c :: rest).takeWhile isNameChar, (c :: rest).dropWhile isNameChar)
    else none
  | _ => none

/-- The tag with the given name whose value begins with `first` and goes on in `more`. -/
def ofParts (line : Nat) (name first : List Char) (more : List (List Char)) : Tag :=
  let written := String.ofList name
  let kind := TagKind.ofName? written
  { name := (kind.map TagKind.canonical).getD written
    kind
    value := String.ofList (Text.trim (Text.joinLines (Text.trimStart first :: more)))
    line }

end Tag

namespace TagSet

/-- The lines before the first marker line, and the tags, of lines of which the first one stands on
source line `line`. -/
def split (line : Nat) : List (List Char) → List (List Char) × List Tag
  | [] => ([], [])
  | l :: rest =>
    let (before, tags) := split (line + 1) rest
    match Tag.marker? l with
    | some (name, first) => ([], Tag.ofParts line name first before :: tags)
    | none => (l :: before, tags)

/-- The description and the tags of a comment. -/
def ofComment (doc : DocComment) : TagSet :=
  let (before, tags) := split doc.line (doc.lines.map String.toList)
  { description := String.ofList (Text.trim (Text.joinLines (before.map Text.trim)))
    tags }

/-- The tags of one kind, in order. -/
def all (set : TagSet) (kind : TagKind) : List Tag :=
  set.tags.filter (·.kind = some kind)

/-- The first tag of a kind, which is the one that counts where one value is wanted. -/
def first? (set : TagSet) (kind : TagKind) : Option Tag :=
  set.tags.find? (·.kind = some kind)

/-- Is there a tag of the given kind? -/
def has (set : TagSet) (kind : TagKind) : Bool :=
  (set.first? kind).isSome

end TagSet

end CustomFunctions
