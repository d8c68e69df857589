import CustomFunctions.Diff.Script

/-!
# The search for an edit script

A shortest edit script, found by meeting in the middle: paths with more and more changes are followed
from both ends until two of them overlap, and the halves on both sides of the place are treated in
the same way.

A path through two lists is at the place `(x, y)` if it has gone through `x` items of the first and
`y` of the second one; it is then on the diagonal `x - y`. For each number `d` of changes the
furthest place on each of the diagonals `d`, `d - 2`, … `-d` is kept as its `x`, in this order.

## Main definitions

- `middle?` — the place where paths from both ends meet
- `script` — the edit script from one list to another one
-/

namespace CustomFunctions.Diff

variable {α : Type}

/-- The furthest places that one more change leads to, before items that agree are followed. `above`
is the place on the diagonal above the first one. -/
def spread : Option Nat → List Nat → List Nat
  | above, [] => [above.getD 0]
  | none, below :: rest => (below + 1) :: spread (some below) rest
  | some above, below :: rest =>
    (if below < above then above else below + 1) :: spread (some below) rest

/-- The number of items from the places `x` and `y` on that agree. -/
def agreement [DecidableEq α] (old new : Array α) (x y : Nat) : Nat :=
  if _ : x < old.size then
    if _ : y < new.size then
      if old[x] = new[y] then agreement old new (x + 1) (y + 1) + 1 else 0
    else 0
  else 0
termination_by old.size - x

/-- The second coordinate of the place `x` on a diagonal. -/
def onDiagonal (x : Nat) (k : Int) : Nat :=
  ((x : Int) - k).toNat

/-- The places that one more change leads to, with the items followed that agree: for each diagonal,
from `k` on in steps of two, the place before and behind those items. -/
def advance [DecidableEq α] (old new : Array α) : Int → List Nat → List (Int × Nat × Nat)
  | _, [] => []
  | k, x :: rest => (k, x, x + agreement old new x (onDiagonal x k)) :: advance old new (k - 2) rest

/-- The furthest place on a diagonal after `d` changes. -/
def furthest (frontier : List Nat) (d : Nat) (k : Int) : Nat :=
  frontier.getD (((d : Int) - k) / 2).toNat 0

/-- Follows paths of `d` changes from both ends, then of more, and at most `fuel` times: the place
where two of them meet. The arrays with the items in backward order serve the paths from the end. -/
def meet [DecidableEq α] (old new oldBack newBack : Array α) (forward backward : List Nat) (d : Nat) :
    Nat → Option (Nat × Nat)
  | 0 => none
  | fuel + 1 =>
    let delta : Int := (old.size : Int) - (new.size : Int)
    let ahead := advance old new d (spread none forward)
    let metAhead := ahead.find? fun (k, _, x) =>
      delta % 2 = 1 && (k - delta).natAbs + 1 ≤ d
        && old.size ≤ x + furthest backward (d - 1) (delta - k)
    match metAhead with
    | some (k, start, _) => some (start, onDiagonal start k)
    | none =>
      let forward := ahead.map (·.2.2)
      let back := advance oldBack newBack d (spread none backward)
      let metBack := back.find? fun (k, _, x) =>
        delta % 2 = 0 && (k - delta).natAbs ≤ d && old.size ≤ x + furthest forward d (delta - k)
      match metBack with
      | some (k, _, x) => some (old.size - x, new.size - onDiagonal x k)
      | none => meet old new oldBack newBack forward (back.map (·.2.2)) (d + 1) fuel

/-- The place where paths from both ends of two lists meet. -/
def middle? [DecidableEq α] (old new : List α) : Option (Nat × Nat) :=
  meet old.toArray new.toArray old.reverse.toArray new.reverse.toArray [] [] 0
    ((old.length + new.length + 1) / 2 + 1)

/-- Both lists divided at the place where paths from their ends meet, unless one part holds all. -/
def halves? [DecidableEq α] (old new : List α) :
    Option ((List α × List α) × (List α × List α)) :=
  (middle? old new).bind fun (x, y) =>
    let halves := ((old.take x, new.take y), (old.drop x, new.drop y))
    if halves.1.1.length + halves.1.2.length < old.length + new.length
        ∧ halves.2.1.length + halves.2.2.length < old.length + new.length then some halves
    else none

theorem halves?_length [DecidableEq α] {old new : List α}
    {first second : List α × List α} (h : halves? old new = some (first, second)) :
    first.1.length + first.2.length < old.length + new.length
      ∧ second.1.length + second.2.length < old.length + new.length := by
  obtain ⟨_, _, h⟩ := Option.bind_eq_some_iff.1 h
  grind

/-- Two lists divided into what agrees at their ends and what stands between. -/
structure Trimmed (α : Type) where
  start : List α
  old : List α
  new : List α
  ending : List α

/-- The items that agree at the starts of two lists, those of the rest that agree at the ends, and
what is left of both lists. -/
def trim [DecidableEq α] (old new : List α) : Trimmed α :=
  let start := commonPrefix old new
  let ending := commonSuffix (old.drop start) (new.drop start)
  { start := old.take start
    old := (old.drop start).take (old.length - start - ending)
    new := (new.drop start).take (new.length - start - ending)
    ending := (old.drop start).drop (old.length - start - ending) }

theorem trim_length [DecidableEq α] (old new : List α) :
    (trim old new).old.length + (trim old new).new.length ≤ old.length + new.length := by
  simp [trim]
  omega

/-- A run unless it is empty. -/
def unlessEmpty (run : Run α) : Script α :=
  if run.items.isEmpty then [] else [run]

/-- The edit script from one list to another one, as the search finds it. -/
def rawScript [DecidableEq α] (old new : List α) : Script α :=
  unlessEmpty (.kept (trim old new).start)
    ++ (if (trim old new).old = [] ∨ (trim old new).new = [] then
        unlessEmpty (.removed (trim old new).old) ++ unlessEmpty (.added (trim old new).new)
      else
        match _ : halves? (trim old new).old (trim old new).new with
        | some (first, second) => rawScript first.1 first.2 ++ rawScript second.1 second.2
        | none => [.removed (trim old new).old, .added (trim old new).new])
    ++ unlessEmpty (.kept (trim old new).ending)
termination_by old.length + new.length
decreasing_by
  all_goals
    have := trim_length old new
    have := halves?_length ‹_›
    omega

/-- The edit script from one list to another one, with its changes settled. -/
def script [DecidableEq α] (old new : List α) : Script α :=
  (rawScript old new).settle

end CustomFunctions.Diff
