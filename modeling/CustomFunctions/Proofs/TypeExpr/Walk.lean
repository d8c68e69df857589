import CustomFunctions.Proofs.Fault
import CustomFunctions.Proofs.TypeExpr.Reading

/-!
# Walks along the tokens

The parser of types as a walk: one position moves along a fixed list of tokens, is left where it is when
an attempt fails, and every counter that is lowered and every cut of the list is checked. Calls and rounds
of loops are granted a depth, so that a walk always comes to an end.

## Main definitions

- `Walk` — what a part of the parser does from a position
- `Walk.balanced` — counting brackets up to the one that closes the first
- `Walk.union`, `Walk.item`, `Walk.primary` — the levels of the grammar
- `Walk.top` — a type as a whole
-/

namespace CustomFunctions.TypeExpr

/-- A way from a position in a list of tokens to another position, with a result if it succeeds. -/
structure Walk (α : Type) where
  run : List Token → Nat → Except Fault (Option α × Nat)

namespace Walk

variable {α β : Type}

/-- Stays at the position. -/
def give (a : α) : Walk α :=
  ⟨fun _ p => .ok (some a, p)⟩

/-- Goes one way and, if it succeeds, another one that depends on the result. -/
def andThen (w : Walk α) (f : α → Walk β) : Walk β :=
  ⟨fun tokens p =>
    match w.run tokens p with
    | .ok (some a, q) => (f a).run tokens q
    | .ok (none, q) => .ok (none, q)
    | .error fault => .error fault⟩

instance : Monad Walk where
  pure := give
  bind := andThen

def fail : Walk α :=
  ⟨fun _ p => .ok (none, p)⟩

def stop (fault : Fault) : Walk α :=
  ⟨fun _ _ => .error fault⟩

/-- The token that stands some places ahead. -/
def peek (ahead : Nat) : Walk (Option Token) :=
  ⟨fun tokens p => .ok (some tokens[p + ahead]?, p)⟩

/-- Passes a number of tokens. -/
def pass (count : Nat) : Walk Unit :=
  ⟨fun _ p => .ok (some (), p + count)⟩

/-- Passes the mark if it comes next. -/
def eat (c : Char) : Walk Bool := do
  if (← peek 0) = some (.mark c) then
    pass 1
    return true
  else return false

/-- Goes the way whether it succeeds or not. -/
def ignoring (w : Walk α) : Walk Unit :=
  ⟨fun tokens p => (w.run tokens p).map fun (_, q) => (some (), q)⟩

-- ════════════════════════════════════════════════════════════════════════
-- Counting brackets
-- ════════════════════════════════════════════════════════════════════════

/-- Counts opening and closing marks along the tokens, which begin at position `p`, up to the closing
mark that brings the count to zero. -/
def balanced (opening closing : Char) (depth p : Nat) : List Token →
    Except Fault (Option Unit × Nat)
  | [] => .ok (none, p)
  | t :: rest =>
    if t = .mark opening then balanced opening closing (depth + 1) (p + 1) rest
    else if t = .mark closing then do
      let depth ← Checked.lower depth
      if depth = 0 then .ok (some (), p + 1)
      else balanced opening closing depth (p + 1) rest
    else balanced opening closing depth (p + 1) rest

/-- The count must have been raised before it is lowered. -/
example : balanced '{' '}' 0 0 [.mark '}'] = .error .counter := rfl

/-- Passes the tokens up to the mark that closes the first one. -/
def skipBalanced (opening closing : Char) : Walk Unit :=
  ⟨fun tokens p => balanced opening closing 0 p (tokens.drop p)⟩

/-- Does an arrow stand behind the parenthesis that closes the first one? -/
def looksLikeFunction : Walk Bool :=
  ⟨fun tokens p => do
    let ahead ← Checked.dropTo tokens p
    let (closed, q) ← balanced '(' ')' 0 p ahead
    return (some (closed.isSome && decide (tokens[q]? = some .arrow)), p)⟩

-- ════════════════════════════════════════════════════════════════════════
-- Types
-- ════════════════════════════════════════════════════════════════════════

/-- Passes pairs of brackets and puts an array level for each around the type. -/
def arrays : Nat → TypeExpr → Walk TypeExpr
  | 0, _ => stop .depth
  | n + 1, e => do
    if (← peek 0) = some (.mark '[') ∧ (← peek 1) = some (.mark ']') then
      pass 2
      arrays n (.array e)
    else return e

/-- Passes the parts of a name. -/
def qualify : Nat → String → Walk String
  | 0, _ => stop .depth
  | n + 1, name => do
    if (← peek 0) = some (.mark '.') then
      match ← peek 1 with
      | some (.word part) =>
        pass 2
        qualify n (name ++ "." ++ part)
      | some (.mark '<') =>
        pass 1
        return name
      | _ => fail
    else return name

/-- Passes a function type of which the parameters come next. -/
def function (result : Walk TypeExpr) : Walk TypeExpr := do
  ignoring (skipBalanced '(' ')')
  if (← peek 0) = some .arrow then
    pass 1
    ignoring result
    return .function
  else return .function

/-- Passes the closing mark behind a type. -/
def close (closing : Char) (e : TypeExpr) : Walk TypeExpr := do
  if ← eat closing then return e else fail

/-- A function type, or a type in parentheses. -/
def parens (inner : Walk TypeExpr) : Walk TypeExpr := do
  if ← looksLikeFunction then function inner
  else
    pass 1
    let e ← inner
    close ')' e

def tuple (members : Walk TypeExpr) : Walk TypeExpr := do
  pass 1
  if ← eat ']' then return .tuple [] else members

def object : Walk TypeExpr := do
  skipBalanced '{' '}'
  return .object

/-- A type behind `?` or `!`, which may be missing. -/
def marked (inner : Walk TypeExpr) : Walk TypeExpr := do
  pass 1
  match ← peek 0 with
  | none => return .named "any"
  | some t => if t = .mark '=' ∨ t = .mark '|' then return .named "any" else inner

/-- The type of a token that stands for itself. -/
def single (e : TypeExpr) : Walk TypeExpr := do
  pass 1
  return e

/-- A type that begins with a word. -/
def reference (name : String) (parts : String → Walk String) (inner : Walk TypeExpr)
    (args : String → Walk TypeExpr) : Walk TypeExpr := do
  pass 1
  if name = "true" ∨ name = "false" then return .literal .boolean
  else if Parser.isOperatorWord name then fail
  else if name = "readonly" then inner
  else
    let name ← parts name
    if ← eat '<' then args name else return .named name

/-- A primary type that begins with the token, given the ways through its parts. -/
def starting (inner items members : Walk TypeExpr) (parts : String → Walk String)
    (args : String → Walk TypeExpr) : Option Token → Walk TypeExpr
  | some (.mark c) =>
    if c = '(' then parens inner
    else if c = '[' then tuple members
    else if c = '{' then object
    else if c = '*' then single (.named "any")
    else if c = '?' ∨ c = '!' then marked items
    else fail
  | some .string => single (.literal .string)
  | some .number => single (.literal .number)
  | some (.word name) => reference name parts items args
  | _ => fail

/-- Behind a type in a list: more of the list behind a comma, or else the closing mark. -/
def delimited (closing : Char) (more : Walk TypeExpr) (whole : TypeExpr) : Walk TypeExpr := do
  if ← eat ',' then more else close closing whole

mutual

/-- Items with bars between them, and perhaps a bar in front. -/
def union : Nat → Walk TypeExpr
  | 0 => stop .depth
  | n + 1 => do
    let _ ← eat '|'
    let e ← item n
    moreMembers n [e]

def moreMembers : Nat → List TypeExpr → Walk TypeExpr
  | 0, _ => stop .depth
  | n + 1, before => do
    if ← eat '|' then
      let e ← item n
      moreMembers n (e :: before)
    else if (← peek 0) = some (.mark '&') then fail
    else return Parser.ofMembers before.reverse

/-- A primary type and the array brackets behind it. -/
def item : Nat → Walk TypeExpr
  | 0 => stop .depth
  | n + 1 => do
    let e ← primary n
    arrays n e

/-- Types with commas between them, up to the closing mark. -/
def listed : Nat → Char → (List TypeExpr → TypeExpr) → List TypeExpr → Walk TypeExpr
  | 0, _, _, _ => stop .depth
  | n + 1, closing, build, before => do
    let e ← union n
    delimited closing (listed n closing build (e :: before)) (build (e :: before).reverse)

def primary : Nat → Walk TypeExpr
  | 0 => stop .depth
  | n + 1 => do
    starting (union n) (item n) (listed n ']' .tuple []) (qualify n)
      (fun full => listed n '>' (.generic full) []) (← peek 0)

end

/-- A union, with an ellipsis before it or an equals sign behind it. -/
def top (n : Nat) : Walk TypeExpr := do
  if (← peek 0) = some .ellipsis then
    pass 1
    let e ← union n
    return .variadic e
  else
    let e ← union n
    if ← eat '=' then return .optional e else return e

end Walk

end CustomFunctions.TypeExpr
