import CustomFunctions.Failure

/-!
# File name patterns

A pattern is a text in which a question mark stands for any character, an asterisk for any
characters, two asterisks for any whole components of a path, and brackets for one character of a
choice. Slashes and points are matched like any other character.

## Main definitions

- `Glob.compile` — the pattern that a text stands for
- `Glob.accepts` — whether a path matches a pattern
-/

namespace CustomFunctions

/-- A choice between characters: those from the first to the second one. -/
structure CharRange where
  first : Char
  last : Char
deriving DecidableEq, Inhabited

namespace Glob

/-- A part of a pattern. -/
inductive Part where
  | char (c : Char)
  | anyChar
  /-- Any characters. -/
  | anySequence
  /-- Any components of a path, each with the slash behind it. -/
  | anyComponents
  | oneOf (ranges : List CharRange)
  | noneOf (ranges : List CharRange)
deriving DecidableEq, Inhabited

/-! ## Compiling -/

/-- The choices in brackets: characters, and ranges with a hyphen between their ends. -/
def ranges : List Char → List CharRange
  | a :: '-' :: b :: rest => ⟨a, b⟩ :: ranges rest
  | a :: rest => ⟨a, a⟩ :: ranges rest
  | [] => []

/-- What stands before the first closing bracket, and what stands behind it. -/
def closing : List Char → Option (List Char × List Char)
  | [] => none
  | c :: rest =>
    if c = ']' then some ([], rest) else (closing rest).map fun (inner, rest) => (c :: inner, rest)

/-- The choice that follows an opening bracket. At least one character stands in it, which may be a
closing bracket. -/
def choice? : List Char → Option (Part × List Char)
  | '!' :: c :: rest =>
    (closing rest).map fun (inner, rest) => (.noneOf (ranges (c :: inner)), rest)
  | '!' :: [] => none
  | c :: rest => (closing rest).map fun (inner, rest) => (.oneOf (ranges (c :: inner)), rest)
  | [] => none

theorem closing_length {s inner rest : List Char} (h : closing s = some (inner, rest)) :
    rest.length < s.length := by
  induction s generalizing inner rest with
  | nil => simp [closing] at h
  | cons c s ih =>
    unfold closing at h
    split at h
    · grind
    · obtain ⟨_, hc, he⟩ := Option.map_eq_some_iff.1 h
      have := ih hc
      grind

theorem choice?_length {s rest : List Char} {part : Part} (h : choice? s = some (part, rest)) :
    rest.length < s.length := by
  unfold choice? at h
  split at h
  case h_1 =>
    obtain ⟨_, hc, he⟩ := Option.map_eq_some_iff.1 h
    have := closing_length hc
    grind
  case h_2 => simp at h
  case h_3 =>
    obtain ⟨_, hc, he⟩ := Option.map_eq_some_iff.1 h
    have := closing_length hc
    grind
  case h_4 => simp at h

/-- Puts whole components behind parts that are given last one first. Several of them in a row count
as one, unless the pattern begins with them. -/
def addComponents (before : List Part) : List Part :=
  match before with
  | .anyComponents :: _ :: _ => before
  | _ => .anyComponents :: before

/-- The parts of a pattern; `before` holds those that have been read, last one first, `previous` the
character before the text, and `position` the number of characters before it. -/
def partsFrom (before : List Part) (previous : Option Char) (position : Nat) (s : List Char) :
    Except PatternError (List Part) :=
  match s with
  | [] => .ok before.reverse
  | '?' :: rest => partsFrom (.anyChar :: before) (some '?') (position + 1) rest
  | '*' :: '*' :: '*' :: _ => .error ⟨position + 2, .longWildcard⟩
  | '*' :: '*' :: rest =>
    if previous = none ∨ previous = some '/' then
      match rest with
      | [] => .ok (addComponents before).reverse
      | '/' :: rest => partsFrom (addComponents before) (some '/') (position + 3) rest
      | _ => .error ⟨position + 2, .recursiveWildcard⟩
    else .error ⟨position - 1, .recursiveWildcard⟩
  | '*' :: rest => partsFrom (.anySequence :: before) (some '*') (position + 1) rest
  | '[' :: rest =>
    match _ : choice? rest with
    | some (part, after) =>
      partsFrom (part :: before) (some ']') (position + 1 + (rest.length - after.length)) after
    | none => .error ⟨position, .range⟩
  | c :: rest => partsFrom (.char c :: before) (some c) (position + 1) rest
termination_by s.length
decreasing_by
  · simp
  · simp
    omega
  · simp
  · have := choice?_length ‹_›
    simp
    omega
  · simp

end Glob

/-- A pattern for paths. -/
structure Glob where
  parts : List Glob.Part
deriving DecidableEq, Inhabited

namespace Glob

/-- The pattern that a text stands for. -/
def compile (text : String) : Except PatternError Glob :=
  (partsFrom [] none 0 text.toList).map Glob.mk

/-! ## Matching -/

/-- What comes of matching parts with a text. -/
inductive Outcome where
  | found
  /-- No match from here. -/
  | mismatch
  /-- No match from here or from any later place, since the text ends before the parts do. -/
  | tooShort
deriving DecidableEq, Inhabited

/-- Is the character in one of the ranges? -/
def inRanges (ranges : List CharRange) (c : Char) : Bool :=
  ranges.any fun r => r.first ≤ c && c ≤ r.last

/-- Does the part stand for the character? -/
def Part.takes (part : Part) (c : Char) : Bool :=
  match part with
  | .char d => c = d
  | .anyChar => true
  | .oneOf ranges => inRanges ranges c
  | .noneOf ranges => ! inRanges ranges c
  | .anySequence => true
  | .anyComponents => true

/-- Tries to match at every later place that the condition allows, and in the end behind the
text. -/
def tryLater (allows : Char → Bool) (matchRest : List Char → Outcome) : List Char → Outcome
  | [] => matchRest []
  | c :: rest =>
    if allows c then
      match matchRest rest with
      | .mismatch => tryLater allows matchRest rest
      | outcome => outcome
    else tryLater allows matchRest rest

/-- Tries to match here, and else at every later place that the condition allows. -/
def tryFrom (allows : Char → Bool) (matchRest : List Char → Outcome) (s : List Char) : Outcome :=
  match matchRest s with
  | .mismatch => tryLater allows matchRest s
  | outcome => outcome

/-- Matches parts with a text. -/
def matchParts : List Part → List Char → Outcome
  | [], s => if s = [] then .found else .mismatch
  | .anySequence :: parts, s => tryFrom (fun _ => true) (matchParts parts) s
  | .anyComponents :: parts, s => tryFrom (· = '/') (matchParts parts) s
  | _ :: _, [] => .tooShort
  | part :: parts, c :: rest => if part.takes c then matchParts parts rest else .mismatch

/-- Does the path match the pattern? -/
def accepts (glob : Glob) (path : String) : Bool :=
  matchParts glob.parts path.toList = .found

end Glob

end CustomFunctions
