/-!
# Edit scripts

An edit script leads from one list to another one by runs of items that are kept, removed or added.

## Main definitions

- `Run` — a run of a script
- `Script.settle` — a script with its changes moved to where they join their like
-/

namespace CustomFunctions.Diff

/-- A run of an edit script. -/
inductive Run (α : Type) where
  | kept (items : List α)
  | removed (items : List α)
  | added (items : List α)
deriving DecidableEq

/-- An edit script. -/
abbrev Script (α : Type) := List (Run α)

variable {α : Type}

/-- The items of a run. -/
def Run.items : Run α → List α
  | kept items => items
  | removed items => items
  | added items => items

/-- Is the run one of removed items? -/
def Run.isRemoved : Run α → Bool
  | removed _ => true
  | _ => false

/-- Is the run one of added items? -/
def Run.isAdded : Run α → Bool
  | added _ => true
  | _ => false

/-- The length of the longest common beginning. -/
def commonPrefix [DecidableEq α] : List α → List α → Nat
  | a :: xs, b :: ys => if a = b then commonPrefix xs ys + 1 else 0
  | _, _ => 0

/-- The length of the longest common end. -/
def commonSuffix [DecidableEq α] (xs ys : List α) : Nat :=
  commonPrefix xs.reverse ys.reverse

namespace Script

/-- A bound for the number of steps that a run can be moved over a script. -/
def weight : Script α → Nat
  | [] => 0
  | run :: rest => run.items.length + 1 + weight rest

/-- The script with kept items put in front. -/
def keepFront (items : List α) : Script α → Script α
  | .kept more :: rest => .kept (items ++ more) :: rest
  | script => .kept items :: script

/-- The reversed script with kept items put at its end. -/
def keepBack (items : List α) : Script α → Script α
  | .kept more :: rest => .kept (more ++ items) :: rest
  | script => .kept items :: script

/-! ## Moving changes

Added items that end like the kept items before them can change places with those, and added items
that begin like the kept items behind them as well. A change can also change places with one of the
other kind, and two neighbours of one kind become one. A script around a run is given as the script
before it, last run first, and the script behind it. -/

/-- The script around a run and the run. -/
abbrev Place (α : Type) := Script α × Run α × Script α

/-- Moves a change as far to the front as it goes. -/
def moveUp [DecidableEq α] (fuel : Nat) (before : Script α) (run : Run α) (behind : Script α) :
    Place α :=
  match fuel with
  | 0 => (before, run, behind)
  | fuel + 1 =>
    match before, run with
    | .kept items :: before, .added new =>
      match commonSuffix items new with
      | 0 => if items = [] then moveUp fuel before run behind else (.kept items :: before, run, behind)
      | n =>
        let moved := items.drop (items.length - n)
        let left := items.take (items.length - n)
        let before := if left = [] then before else .kept left :: before
        moveUp fuel before (.added (moved ++ new.take (new.length - n))) (keepFront moved behind)
    | .removed old :: before, .added _ => moveUp fuel before run (.removed old :: behind)
    | .added new :: before, .removed _ => moveUp fuel before run (.added new :: behind)
    | .added more :: before, .added new => moveUp fuel before (.added (more ++ new)) behind
    | .removed more :: before, .removed old => moveUp fuel before (.removed (more ++ old)) behind
    | before, run => (before, run, behind)

/-- Moves a change as far to the end as it goes. -/
def moveDown [DecidableEq α] (fuel : Nat) (before : Script α) (run : Run α) (behind : Script α) :
    Place α :=
  match fuel with
  | 0 => (before, run, behind)
  | fuel + 1 =>
    match run, behind with
    | .added new, .kept items :: behind =>
      match commonPrefix items new with
      | 0 =>
        if items = [] then moveDown fuel before run behind else (before, run, .kept items :: behind)
      | n =>
        let moved := items.take n
        let left := items.drop n
        let behind := if left = [] then behind else .kept left :: behind
        moveDown fuel (keepBack moved before) (.added (new.drop n ++ moved)) behind
    | .added _, .removed old :: behind => moveDown fuel (.removed old :: before) run behind
    | .removed _, .added new :: behind => moveDown fuel (.added new :: before) run behind
    | .added new, .added more :: behind => moveDown fuel before (.added (new ++ more)) behind
    | .removed old, .removed more :: behind => moveDown fuel before (.removed (old ++ more)) behind
    | run, behind => (before, run, behind)

/-- Moves every run that is selected up and then down. -/
def settleRuns [DecidableEq α] (selects : Run α → Bool) (bound : Nat) :
    Nat → Script α → Script α → Script α
  | 0, before, script => before.reverse ++ script
  | _ + 1, before, [] => before.reverse
  | fuel + 1, before, run :: rest =>
    if selects run then
      let (before, run, rest) := moveUp bound before run rest
      let (before, run, rest) := moveDown bound before run rest
      settleRuns selects bound fuel (run :: before) rest
    else settleRuns selects bound fuel (run :: before) rest

/-- The script with its changes moved to where they join their like: first the removed items, then
the added ones. -/
def settle [DecidableEq α] (script : Script α) : Script α :=
  let bound := script.weight + 1
  settleRuns Run.isAdded bound bound [] (settleRuns Run.isRemoved bound bound [] script)

end Script

end CustomFunctions.Diff
