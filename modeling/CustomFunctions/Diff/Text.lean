import CustomFunctions.Diff.Search

/-!
# Differences between texts

The lines in which two texts differ, with some lines around them: removed lines are marked by a
minus sign, added ones by a plus sign and kept ones by a space, and three points end each group of
changes.

## Main definitions

- `wholeLines` — the lines of a text with their endings
- `groups` — the changes of a script with what is kept around them
- `render` — the differences between two texts
-/

namespace CustomFunctions.Diff

/-! ## Lines -/

/-- The lines of a text with their endings: a line feed, a carriage return, or both in this
order. -/
def wholeLines : List Char → List (List Char)
  | [] => []
  | '\r' :: '\n' :: rest => ['\r', '\n'] :: wholeLines rest
  | c :: rest =>
    if c = '\n' ∨ c = '\r' then [c] :: wholeLines rest
    else
      match wholeLines rest with
      | [] => [[c]]
      | line :: lines => (c :: line) :: lines

/-- Does the line have an ending? -/
def isTerminated (line : List Char) : Bool :=
  line.getLast?.any fun c => c = '\n' || c = '\r'

/-! ## Groups -/

/-- A stretch of two texts: the same in both, or removed lines with the added ones that stand for
them. -/
inductive Stretch where
  | same (lines : List (List Char))
  | change (removed added : List (List Char))
deriving DecidableEq

/-- The stretches with a run in front. -/
def addRun (run : Run (List Char)) (stretches : List Stretch) : List Stretch :=
  match run, stretches with
  | .kept lines, .same more :: rest => .same (lines ++ more) :: rest
  | .kept lines, rest => .same lines :: rest
  | .removed lines, .change removed added :: rest => .change (lines ++ removed) added :: rest
  | .removed lines, rest => .change lines [] :: rest
  | .added lines, .change removed added :: rest => .change removed (lines ++ added) :: rest
  | .added lines, rest => .change [] lines :: rest

/-- The stretches of an edit script. -/
def stretches (script : Script (List Char)) : List Stretch :=
  script.foldr addRun []

/-- The number of lines that are shown around a change. -/
def context : Nat := 3

/-- The stretches without the lines before the first change that are not shown. -/
def trimStart : List Stretch → List Stretch
  | .same lines :: rest => .same (lines.drop (lines.length - context)) :: rest
  | stretches => stretches

/-- The stretches without the lines behind the last change that are not shown. -/
def trimEnd (stretches : List Stretch) : List Stretch :=
  match stretches.reverse with
  | .same lines :: before => (.same (lines.take context) :: before).reverse
  | _ => stretches

/-- The stretches in groups, divided where more lines are the same than are shown between two
changes. The first of them belong to the given group, which has its last stretch first. -/
def divide (group : List Stretch) : List Stretch → List (List Stretch)
  | [] => [group.reverse]
  | .same lines :: rest =>
    if 2 * context < lines.length then
      (.same (lines.take context) :: group).reverse
        :: divide [.same (lines.drop (lines.length - context))] rest
    else divide (.same lines :: group) rest
  | change :: rest => divide (change :: group) rest

/-- Is there a change in the group? -/
def isShown : List Stretch → Bool
  | [] => false
  | [.same _] => false
  | _ => true

/-- The changes of a script with the lines around them that are shown. -/
def groups (script : Script (List Char)) : List (List Stretch) :=
  (divide [] (trimEnd (trimStart (stretches script)))).filter isShown

/-! ## Writing -/

/-- A line behind its mark. A line without an ending gets two line feeds. -/
def renderLine (mark : Char) (line : List Char) : List Char :=
  mark :: line ++ (if isTerminated line then [] else ['\n', '\n'])

/-- The lines of a stretch. -/
def Stretch.render : Stretch → List Char
  | same lines => lines.flatMap (renderLine ' ')
  | change removed added => removed.flatMap (renderLine '-') ++ added.flatMap (renderLine '+')

/-- The lines of a group. -/
def renderGroup (group : List Stretch) : List Char :=
  group.flatMap Stretch.render ++ "...\n".toList

/-- The differences between two texts; none if there are none. -/
def render (current generated : String) : Option String :=
  if current = generated then none
  else
    some (String.ofList
      ((groups (script (wholeLines current.toList) (wholeLines generated.toList))).flatMap
        renderGroup))

end CustomFunctions.Diff
