import CustomFunctions.Text.Casing.Table
import CustomFunctions.Text.Range

/-!
# Lower and upper case

Full case mapping of Unicode: one character may become several, and a capital sigma that ends a
word becomes the final form of the small letter.
-/

namespace CustomFunctions.Text

/-- The image of `c` under one run, if the run holds it. -/
def CaseRun.image? (run : CaseRun) (c : Nat) : Option Nat :=
  if run.first ≤ c ∧ c ≤ run.last ∧ (c - run.first) % run.step = 0 then
    some (run.image + (c - run.first))
  else none

/-- The image of a character under a mapping given by runs and expansions. -/
def caseImage (runs : List CaseRun) (expansions : List (Nat × List Nat)) (c : Char) : List Char :=
  match expansions.lookup c.toNat with
  | some image => image.map Char.ofNat
  | none =>
    match runs.findSome? (·.image? c.toNat) with
    | some image => [Char.ofNat image]
    | none => [c]

/-- The lower-case form of a character by itself. -/
def lowerChar (c : Char) : List Char :=
  if c.toNat < 0x80 then [c.toLower] else caseImage lowerRuns lowerExpansions c

/-- The upper-case form of a character. -/
def upperChar (c : Char) : List Char :=
  if c.toNat < 0x80 then [c.toUpper] else caseImage upperRuns upperExpansions c

/-- Is the first character that case mapping does not ignore a cased one? -/
def startsCased (s : List Char) : Bool :=
  match s.dropWhile (inRanges caseIgnorableRanges) with
  | [] => false
  | c :: _ => inRanges casedRanges c

/-- The lower-case form of `rest`, where `before` holds the characters in front of it, last one
first. A capital sigma is final when a cased character stands before it and none after it. -/
def lowerAfter (before : List Char) : List Char → List Char
  | [] => []
  | c :: rest =>
    (if c = 'Σ' then
      if startsCased before && ! startsCased rest then ['ς'] else ['σ']
    else lowerChar c) ++ lowerAfter (c :: before) rest

/-- The lower-case form of a text. -/
def lower (s : List Char) : List Char :=
  lowerAfter [] s

/-- The upper-case form of a text. -/
def upper (s : List Char) : List Char :=
  s.flatMap upperChar

/-- The lower-case form of a string. -/
def lowerCase (s : String) : String :=
  String.ofList (lower s.toList)

/-- The upper-case form of a string. -/
def upperCase (s : String) : String :=
  String.ofList (upper s.toList)

end CustomFunctions.Text
