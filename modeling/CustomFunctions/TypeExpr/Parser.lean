import CustomFunctions.TypeExpr.Basic
import CustomFunctions.TypeExpr.Token

/-!
# Parsing type expressions

A parser by recursive descent over tokens. Parsing never fails as a whole: what the grammar does not
cover becomes an `invalid` type with the text. Within the parser both a success and a failure leave
a rest of the tokens, because a function type whose result does not parse is still a function type
and the parser goes on where the attempt to read the result stopped.

## Main definitions

- `Outcome` — a parsed type or a failure, with the tokens that are left
- `Parser.union`, `Parser.item`, `Parser.primary` — the levels of the grammar
- `TypeExpr.parse` — the type that a text stands for
-/

namespace CustomFunctions.TypeExpr

/-- How an attempt to read a type ended, and the tokens that are left: fewer than `size` after a
success, at most `size` after a failure. -/
inductive Outcome (size : Nat) where
  | ok (e : TypeExpr) (rest : List Token) (shorter : rest.length < size)
  | fail (rest : List Token) (fits : rest.length ≤ size)

namespace Outcome

/-- The outcome, measured against a larger size. -/
def widen {m n : Nat} (o : Outcome m) (h : m ≤ n) : Outcome n :=
  match o with
  | .ok e rest shorter => .ok e rest (Nat.lt_of_lt_of_le shorter h)
  | .fail rest fits => .fail rest (Nat.le_trans fits h)

/-- A failure that leaves all the tokens. -/
def stay (ts : List Token) : Outcome ts.length :=
  .fail ts (Nat.le_refl _)

/-- The tokens that are left. -/
def rest {n : Nat} : Outcome n → List Token
  | .ok _ rest _ => rest
  | .fail rest _ => rest

theorem rest_length {n : Nat} (o : Outcome n) : o.rest.length ≤ n := by
  cases o with
  | ok e rest shorter => exact Nat.le_of_lt shorter
  | fail rest fits => exact fits

end Outcome

namespace Parser

/-- The tokens behind the mark that closes what has just been opened; `depth` counts the inner
openings that are not closed yet. -/
def afterClosing? (opening closing : Char) (depth : Nat) : List Token → Option (List Token)
  | [] => none
  | t :: rest =>
    if t = .mark closing then
      match depth with
      | 0 => some rest
      | depth + 1 => afterClosing? opening closing depth rest
    else if t = .mark opening then afterClosing? opening closing (depth + 1) rest
    else afterClosing? opening closing depth rest

/-- The type with one array level for each pair of brackets that follows, and the tokens behind
them. -/
def brackets (e : TypeExpr) : List Token → TypeExpr × List Token
  | .mark '[' :: .mark ']' :: rest => brackets (.array e) rest
  | rest => (e, rest)

/-- The name with the parts that follow it behind points, and the tokens behind them; none if a
point is followed by neither a word nor `<`. A point before `<` is dropped. -/
def qualify (name : String) : List Token → Option String × List Token
  | .mark '.' :: .word part :: rest => qualify (name ++ "." ++ part) rest
  | .mark '.' :: .mark '<' :: rest => (some name, .mark '<' :: rest)
  | .mark '.' :: rest => (none, .mark '.' :: rest)
  | rest => (some name, rest)

/-- The tokens without a bar at their start. -/
def dropBar : List Token → List Token
  | .mark '|' :: rest => rest
  | rest => rest

/-- One member is no union. -/
def ofMembers : List TypeExpr → TypeExpr
  | [e] => e
  | members => .union members

/-- The words that begin an operator on types which has no counterpart among cell values. -/
def isOperatorWord (name : String) : Bool :=
  name = "typeof" || name = "keyof" || name = "infer" || name = "unique"

/-- Does `?` or `!` stand alone here, for a type that is not told? -/
def endsMarker : List Token → Bool
  | [] => true
  | t :: _ => t = .mark '=' || t = .mark '|'

theorem afterClosing?_length {opening closing : Char} {depth : Nat} {ts rest : List Token}
    (h : afterClosing? opening closing depth ts = some rest) : rest.length < ts.length := by
  fun_induction afterClosing? opening closing depth ts <;> grind

/-- What is left behind the result of a function type is shorter than the whole type. -/
theorem result_length {inside result : List Token}
    (h : afterClosing? '(' ')' 0 inside = some (.arrow :: result)) (o : Outcome result.length) :
    o.rest.length < (Token.mark '(' :: inside).length := by
  have := afterClosing?_length h
  have := o.rest_length
  grind

theorem brackets_length (e : TypeExpr) (ts : List Token) :
    (brackets e ts).2.length ≤ ts.length := by
  fun_induction brackets e ts <;> grind

theorem qualify_length {name : String} {ts rest : List Token} {full : Option String}
    (h : qualify name ts = (full, rest)) : rest.length ≤ ts.length := by
  fun_induction qualify name ts <;> grind

/-- The arguments behind a name are shorter than what follows the name. -/
theorem arguments_length {name full : String} {ts rest : List Token}
    (h : qualify name ts = (some full, .mark '<' :: rest)) : rest.length ≤ ts.length + 1 := by
  have := qualify_length h
  grind

theorem dropBar_length (ts : List Token) : (dropBar ts).length ≤ ts.length := by
  unfold dropBar
  split <;> grind

/-- The type, provided that the closing mark follows it. -/
def close (closing : Char) (e : TypeExpr) (ts : List Token) : Outcome (ts.length + 1) :=
  match ts with
  | .mark c :: rest => if c = closing then .ok e rest (by grind) else .fail (.mark c :: rest) (by grind)
  | rest => .fail rest (by grind)

mutual

/-- A union: items between bars, with a bar allowed in front. -/
def union (ts : List Token) : Outcome ts.length :=
  match item (dropBar ts) with
  | .fail rest fits => .fail rest (Nat.le_trans fits (dropBar_length ts))
  | .ok e rest shorter =>
    (moreMembers [e] rest).widen (Nat.lt_of_lt_of_le shorter (dropBar_length ts))
termination_by (ts.length, 3)
decreasing_by
  · have := dropBar_length ts
    rcases Nat.lt_or_eq_of_le this with h | h
    · exact Prod.Lex.left _ _ h
    · rw [h]; exact Prod.Lex.right _ (by decide)
  · exact Prod.Lex.left _ _ (Nat.lt_of_lt_of_le shorter (dropBar_length ts))

/-- The members that follow those in `before`, which holds them last one first. An intersection
is not covered. -/
def moreMembers (before : List TypeExpr) (ts : List Token) : Outcome (ts.length + 1) :=
  match ts with
  | .mark '|' :: rest =>
    match item rest with
    | .fail rest fits => .fail rest (by grind)
    | .ok e rest shorter => (moreMembers (e :: before) rest).widen (by grind)
  | .mark '&' :: rest => .fail (.mark '&' :: rest) (by grind)
  | rest => .ok (ofMembers before.reverse) rest (by grind)
termination_by (ts.length, 4)
decreasing_by
  · exact Prod.Lex.left _ _ (by grind)
  · exact Prod.Lex.left _ _ (by grind)

/-- A primary type and the array brackets behind it. -/
def item (ts : List Token) : Outcome ts.length :=
  match primary ts with
  | .fail rest fits => .fail rest fits
  | .ok e rest shorter =>
    .ok (brackets e rest).1 (brackets e rest).2
      (Nat.lt_of_le_of_lt (brackets_length e rest) shorter)
termination_by (ts.length, 2)
decreasing_by exact Prod.Lex.right _ (by decide)

/-- Types between commas up to the closing mark, behind those in `before`. -/
def listed (closing : Char) (build : List TypeExpr → TypeExpr) (before : List TypeExpr)
    (ts : List Token) : Outcome ts.length :=
  match union ts with
  | .fail rest fits => .fail rest fits
  | .ok e rest shorter =>
    match rest with
    | .mark c :: rest =>
      if c = ',' then (listed closing build (e :: before) rest).widen (by grind)
      else if c = closing then .ok (build (e :: before).reverse) rest (by grind)
      else .fail (.mark c :: rest) (by grind)
    | rest => .fail rest (by grind)
termination_by (ts.length, 4)
decreasing_by
  · exact Prod.Lex.right _ (by decide)
  · exact Prod.Lex.left _ _ (by grind)

/-- A type without array brackets behind it. -/
def primary (ts : List Token) : Outcome ts.length :=
  match ts with
  | [] => .stay []
  | .mark '(' :: inside =>
    match _ : afterClosing? '(' ')' 0 inside with
    | some (.arrow :: result) =>
      .ok .function (union result).rest (result_length ‹_› _)
    | _ =>
      match union inside with
      | .fail rest fits => .fail rest (Nat.le_succ_of_le fits)
      | .ok e rest shorter => (close ')' e rest).widen (Nat.le_succ_of_le shorter)
  | .mark '[' :: .mark ']' :: rest => .ok (.tuple []) rest (Nat.lt_succ_of_lt (Nat.lt_succ_self _))
  | .mark '[' :: rest => (listed ']' .tuple [] rest).widen (Nat.le_succ _)
  | .mark '{' :: inside =>
    match _ : afterClosing? '{' '}' 0 inside with
    | some rest => .ok .object rest (Nat.lt_succ_of_lt (afterClosing?_length ‹_›))
    | none => .fail [] (Nat.zero_le _)
  | .mark '*' :: rest => .ok (.named "any") rest (Nat.lt_succ_self _)
  | .mark c :: rest =>
    if c = '?' ∨ c = '!' then
      if endsMarker rest then .ok (.named "any") rest (Nat.lt_succ_self _)
      else (item rest).widen (Nat.le_succ _)
    else .stay (.mark c :: rest)
  | .string :: rest => .ok (.literal .string) rest (Nat.lt_succ_self _)
  | .number :: rest => .ok (.literal .number) rest (Nat.lt_succ_self _)
  | .word name :: rest =>
    if name = "true" ∨ name = "false" then .ok (.literal .boolean) rest (Nat.lt_succ_self _)
    else if isOperatorWord name then .fail rest (Nat.le_succ _)
    else if name = "readonly" then (item rest).widen (Nat.le_succ _)
    else
      match _ : qualify name rest with
      | (none, rest) => .fail rest (Nat.le_succ_of_le (qualify_length ‹_›))
      | (some name, .mark '<' :: rest) =>
        (listed '>' (.generic name) [] rest).widen (arguments_length ‹_›)
      | (some name, rest) => .ok (.named name) rest (Nat.lt_succ_of_le (qualify_length ‹_›))
  | .arrow :: rest => .stay (.arrow :: rest)
  | .ellipsis :: rest => .stay (.ellipsis :: rest)
termination_by (ts.length, 1)
decreasing_by
  · exact Prod.Lex.left _ _ (by have := afterClosing?_length ‹_›; grind)
  · exact Prod.Lex.left _ _ (by grind)
  · exact Prod.Lex.left _ _ (by grind)
  · exact Prod.Lex.left _ _ (by grind)
  · exact Prod.Lex.left _ _ (by grind)
  · exact Prod.Lex.left _ _ (by have := qualify_length ‹_›; grind)

end

/-- The type that all the tokens make up: a union, with an ellipsis before it or an equals sign
behind it. -/
def whole? (ts : List Token) : Option TypeExpr :=
  match ts with
  | .ellipsis :: inner =>
    match union inner with
    | .ok e [] _ => some (.variadic e)
    | _ => none
  | ts =>
    match union ts with
    | .ok e rest _ =>
      if rest = [] then some e
      else if rest = [.mark '='] then some (.optional e)
      else none
    | .fail _ _ => none

end Parser

/-- The type that a text stands for. -/
def parse (written : String) : TypeExpr :=
  let trimmed := Text.trim written.toList
  match (Token.scan? trimmed).bind Parser.whole? with
  | some e => e
  | none => .invalid (String.ofList trimmed)

end CustomFunctions.TypeExpr
