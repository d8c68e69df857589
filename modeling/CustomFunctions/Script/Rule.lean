import CustomFunctions.Script.Gap

/-!
# Rules

A rule reads a phrase of the grammar at the place where a state stands. A rule that does not apply
leaves behind how far reading got: the furthest token that some rule could not take is the first
token that cannot continue the script, whatever alternatives have been tried.

## Main definitions

- `State` — a place in a script and the furthest token that was refused
- `Rule` — a way to read a phrase
- `Rule.orElse`, `Rule.many`, `Rule.list` — alternatives, repetition, and lists with separators
-/

namespace CustomFunctions.Script

/-- A place in a script, right before a token. -/
structure State where
  /-- The text from the token on. -/
  rest : List Char
  /-- The number of characters before the token. -/
  position : Nat
  /-- The line of the token. -/
  line : Nat
  /-- What stands before the token. -/
  gap : Gap
  /-- The position behind the token before, and the line on which that one ends. -/
  end_ : Nat
  endLine : Nat
  /-- The position of the furthest token that was refused, and its line. -/
  refused : Nat
  refusedLine : Nat
deriving Inhabited

namespace State

/-- The state at the first token of a text. -/
def start (s : List Char) : State :=
  let (gap, line, rest) := Gap.read 1 {} s
  { rest, position := s.length - rest.length, line, gap, end_ := 0, endLine := 1, refused := 0,
    refusedLine := line }

/-- The state with the token at its place marked as refused. At the end of the text the line is that
of the last token. -/
def refuse (st : State) : State :=
  if st.refused ≤ st.position then
    { st with
      refused := st.position
      refusedLine := if st.rest = [] then st.endLine else st.line }
  else st

/-- The state behind the next `n` characters, which are part of a token and have no gap behind
them. -/
def skip (st : State) (n : Nat) : State :=
  let taken := st.rest.take n
  let line := st.line + lineFeeds taken
  { st with
    rest := st.rest.drop n
    position := st.position + taken.length
    line
    gap := {}
    end_ := st.position + taken.length
    endLine := line }

/-- The state behind the gap that the text begins with. -/
def pass (st : State) : State :=
  let (gap, line, rest) := Gap.read st.line {} st.rest
  { st with rest, position := st.position + (st.rest.length - rest.length), line, gap }

/-- The state at the token behind a token of `n` characters. -/
def advance (st : State) (n : Nat) : State :=
  (st.skip n).pass

/-- The state, remembering the refusals of another one. -/
def keepRefusals (st other : State) : State :=
  { st with refused := other.refused, refusedLine := other.refusedLine }

end State

/-- A way to read a phrase: what it reads, if it applies, and the state behind it. -/
structure Rule (α : Type) where
  run : State → Option α × State

namespace Rule

variable {α β : Type}

/-- Reads nothing. -/
def give (a : α) : Rule α :=
  ⟨fun st => (some a, st)⟩

/-- Does not apply, without refusing a token. -/
def never : Rule α :=
  ⟨fun st => (none, st)⟩

/-- Does not apply, because of the token at its place. -/
def refuse : Rule α :=
  ⟨fun st => (none, st.refuse)⟩

/-- Reads one phrase and then another that depends on it. -/
def andThen (p : Rule α) (f : α → Rule β) : Rule β :=
  ⟨fun st =>
    match p.run st with
    | (some a, next) => (f a).run next
    | (none, next) => (none, next)⟩

instance : Monad Rule where
  pure := give
  bind := andThen

/-- Reads by the first rule, or else by the second one from the same place. -/
def orElse (p q : Rule α) : Rule α :=
  ⟨fun st =>
    match p.run st with
    | (some a, next) => (some a, next)
    | (none, next) => q.run (st.keepRefusals next)⟩

/-- Reads by the first of several rules that applies. -/
def oneOf : List (Rule α) → Rule α
  | [] => never
  | [p] => p
  | p :: rest => orElse p (oneOf rest)

/-- The state at the place of the rule. -/
def state : Rule State :=
  ⟨fun st => (some st, st)⟩

/-- Moves to another state. -/
def moveTo (next : State) : Rule Unit :=
  ⟨fun _ => (some (), next)⟩

/-- Applies if the condition holds of the state. -/
def check (condition : State → Bool) : Rule Unit :=
  ⟨fun st => if condition st then (some (), st) else (none, st.refuse)⟩

/-- Would the rule apply here? -/
def ahead (p : Rule α) : Rule Bool :=
  ⟨fun st => (some (p.run st).1.isSome, st)⟩

/-- Reads by the first rule if the condition holds of the state, and else by the second one. -/
def choose (condition : State → Bool) (p q : Rule α) : Rule α :=
  ⟨fun st => if condition st then p.run st else q.run st⟩

/-- Reads by the rule if it applies. -/
def optional (p : Rule α) : Rule (Option α) :=
  orElse (do return some (← p)) (give none)

/-- Reads by the rule as often as it applies, but at most `n` times and only while it makes
progress. -/
def atMost (p : Rule α) : Nat → Rule (List α)
  | 0 => give []
  | n + 1 =>
    ⟨fun st =>
      match p.run st with
      | (some a, next) =>
        if next.position ≤ st.position then (some [a], next)
        else
          match (atMost p n).run next with
          | (some rest, last) => (some (a :: rest), last)
          | (none, last) => (some [a], next.keepRefusals last)
      | (none, next) => (some [], st.keepRefusals next)⟩

/-- Reads by the rule as often as it applies. -/
def many (p : Rule α) : Rule (List α) :=
  ⟨fun st => (atMost p (st.rest.length + 1)).run st⟩

/-- Reads phrases with a separator between them, at least one. -/
def list (p : Rule α) (separator : Rule Unit) : Rule (List α) := do
  let first ← p
  let rest ← many (do separator; p)
  return first :: rest

/-- What the rule reads, with the source text from its first to its last token and the line of the
first. -/
def spanned (p : Rule α) : Rule (α × List Char × Nat) :=
  ⟨fun st =>
    match p.run st with
    | (some a, next) => (some (a, st.rest.take (next.end_ - st.position), st.line), next)
    | (none, next) => (none, next)⟩

end Rule

end CustomFunctions.Script
