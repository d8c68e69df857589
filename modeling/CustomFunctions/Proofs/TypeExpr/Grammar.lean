import CustomFunctions.Proofs.TypeExpr.Reading

/-!
# The grammar of types

The types that lists of tokens stand for, as rules that say nothing of the order in which they are
tried. A rule speaks of the tokens from where a type begins, of the type, and of the tokens behind it,
since a `?` or `!` stands alone only before certain tokens.

## Main definitions

- `Grammar.IsBraced` — tokens in braces up to the brace that closes the first one
- `Grammar.IsUnion`, `Grammar.IsItem`, `Grammar.IsPrimary` — the levels of the grammar
- `Grammar.IsWhole` — the type that all tokens together stand for
-/

namespace CustomFunctions.TypeExpr.Grammar

/-- The tokens begin with a brace and hold as many closing as opening ones, and no shorter beginning
does. -/
structure IsBraced (ts : List Token) : Prop where
  opens : ts.head? = some (.mark '{')
  balanced : ts.count (.mark '}') = ts.count (.mark '{')
  shortest : ∀ front, front <+: ts → front ≠ [] →
    front.count (.mark '}') = front.count (.mark '{') → front = ts

/-- Words behind points. -/
def pointed (parts : List String) : List Token :=
  parts.flatMap fun part => [.mark '.', .word part]

/-- Words with points between them. -/
def nameTokens (first : String) (parts : List String) : List Token :=
  .word first :: pointed parts

/-- The name that the words make up. -/
def joined (first : String) (parts : List String) : String :=
  ".".intercalate (first :: parts)

mutual

/-- Items with bars between them, and perhaps a bar in front. -/
inductive IsUnion : List Token → TypeExpr → List Token → Prop
  | plain {ts rest : List Token} {es : List TypeExpr} (h : AreMembers ts es rest) :
      IsUnion ts (Parser.ofMembers es) rest
  | barred {ts rest : List Token} {es : List TypeExpr} (h : AreMembers ts es rest) :
      IsUnion (.mark '|' :: ts) (Parser.ofMembers es) rest

/-- One or more items with bars between them. -/
inductive AreMembers : List Token → List TypeExpr → List Token → Prop
  | single {ts rest : List Token} {e : TypeExpr} (h : IsItem ts e rest) : AreMembers ts [e] rest
  | cons {ts more rest : List Token} {e : TypeExpr} {es : List TypeExpr}
      (h : IsItem ts e (.mark '|' :: more)) (hmore : AreMembers more es rest) :
      AreMembers ts (e :: es) rest

/-- A primary type with pairs of brackets behind it, any number of them. -/
inductive IsItem : List Token → TypeExpr → List Token → Prop
  | primary {ts rest : List Token} {e : TypeExpr} (h : IsPrimary ts e rest) : IsItem ts e rest
  | array {ts rest : List Token} {e : TypeExpr} (h : IsItem ts e (.mark '[' :: .mark ']' :: rest)) :
      IsItem ts (.array e) rest

/-- One or more unions with commas between them. -/
inductive AreListed : List Token → List TypeExpr → List Token → Prop
  | single {ts rest : List Token} {e : TypeExpr} (h : IsUnion ts e rest) : AreListed ts [e] rest
  | cons {ts more rest : List Token} {e : TypeExpr} {es : List TypeExpr}
      (h : IsUnion ts e (.mark ',' :: more)) (hmore : AreListed more es rest) :
      AreListed ts (e :: es) rest

/-- A type that ends before the first pair of brackets behind it. -/
inductive IsPrimary : List Token → TypeExpr → List Token → Prop
  | enclosed {ts rest : List Token} {e : TypeExpr} (h : IsUnion ts e (.mark ')' :: rest)) :
      IsPrimary (.mark '(' :: ts) e rest
  | emptyTuple (rest : List Token) : IsPrimary (.mark '[' :: .mark ']' :: rest) (.tuple []) rest
  | tuple {ts rest : List Token} {es : List TypeExpr} (h : AreListed ts es (.mark ']' :: rest)) :
      IsPrimary (.mark '[' :: ts) (.tuple es) rest
  | object {braced : List Token} (h : IsBraced braced) (rest : List Token) :
      IsPrimary (braced ++ rest) .object rest
  | star (rest : List Token) : IsPrimary (.mark '*' :: rest) (.named "any") rest
  | marked {c : Char} (hc : c = '?' ∨ c = '!') {ts rest : List Token} {e : TypeExpr}
      (h : IsItem ts e rest) : IsPrimary (.mark c :: ts) e rest
  | untold {c : Char} (hc : c = '?' ∨ c = '!') {rest : List Token}
      (hrest : ∀ t ∈ rest.head?, t = .mark '=' ∨ t = .mark '|') :
      IsPrimary (.mark c :: rest) (.named "any") rest
  | string (rest : List Token) : IsPrimary (.string :: rest) (.literal .string) rest
  | number (rest : List Token) : IsPrimary (.number :: rest) (.literal .number) rest
  | boolean {name : String} (h : name = "true" ∨ name = "false") (rest : List Token) :
      IsPrimary (.word name :: rest) (.literal .boolean) rest
  | readonly {ts rest : List Token} {e : TypeExpr} (h : IsItem ts e rest) :
      IsPrimary (.word "readonly" :: ts) e rest
  | named {first : String} (h : first ∉ reservedWords) (parts : List String) (rest : List Token) :
      IsPrimary (nameTokens first parts ++ rest) (.named (joined first parts)) rest
  | generic {first : String} (h : first ∉ reservedWords) (parts : List String)
      {ts rest : List Token} {es : List TypeExpr} (hes : AreListed ts es (.mark '>' :: rest)) :
      IsPrimary (nameTokens first parts ++ .mark '<' :: ts) (.generic (joined first parts) es) rest
  | pointed {first : String} (h : first ∉ reservedWords) (parts : List String)
      {ts rest : List Token} {es : List TypeExpr} (hes : AreListed ts es (.mark '>' :: rest)) :
      IsPrimary (nameTokens first parts ++ .mark '.' :: .mark '<' :: ts)
        (.generic (joined first parts) es) rest

end

/-- A union, with an ellipsis before it or an equals sign behind it, that takes up all tokens. -/
inductive IsWhole : List Token → TypeExpr → Prop
  | plain {ts : List Token} {e : TypeExpr} (h : IsUnion ts e []) : IsWhole ts e
  | variadic {ts : List Token} {e : TypeExpr} (h : IsUnion ts e []) :
      IsWhole (.ellipsis :: ts) (.variadic e)
  | optional {ts : List Token} {e : TypeExpr} (h : IsUnion ts e [.mark '=']) :
      IsWhole ts (.optional e)

-- ════════════════════════════════════════════════════════════════════════
-- What stands behind a type is an end of the tokens
-- ════════════════════════════════════════════════════════════════════════

mutual

theorem IsUnion.suffix {ts rest : List Token} {e : TypeExpr} : IsUnion ts e rest → rest <:+ ts
  | .plain h => h.suffix
  | .barred h => h.suffix.trans (List.suffix_cons _ _)

theorem AreMembers.suffix {ts rest : List Token} {es : List TypeExpr} :
    AreMembers ts es rest → rest <:+ ts
  | .single h => h.suffix
  | .cons h hmore => (hmore.suffix.trans (List.suffix_cons _ _)).trans h.suffix

theorem IsItem.suffix {ts rest : List Token} {e : TypeExpr} : IsItem ts e rest → rest <:+ ts
  | .primary h => h.suffix
  | .array h => (List.suffix_append [_, _] rest).trans h.suffix

theorem AreListed.suffix {ts rest : List Token} {es : List TypeExpr} :
    AreListed ts es rest → rest <:+ ts
  | .single h => h.suffix
  | .cons h hmore => (hmore.suffix.trans (List.suffix_cons _ _)).trans h.suffix

theorem IsPrimary.suffix {ts rest : List Token} {e : TypeExpr} : IsPrimary ts e rest → rest <:+ ts
  | .enclosed h => ((List.suffix_cons _ _).trans h.suffix).trans (List.suffix_cons _ _)
  | .emptyTuple rest => List.suffix_append [_, _] rest
  | .tuple h => ((List.suffix_cons _ _).trans h.suffix).trans (List.suffix_cons _ _)
  | .object _ _ => List.suffix_append _ _
  | .star _ => List.suffix_cons _ _
  | .untold _ _ => List.suffix_cons _ _
  | .string _ => List.suffix_cons _ _
  | .number _ => List.suffix_cons _ _
  | .boolean _ _ => List.suffix_cons _ _
  | .marked _ h => h.suffix.trans (List.suffix_cons _ _)
  | .readonly h => h.suffix.trans (List.suffix_cons _ _)
  | .named _ _ _ => List.suffix_append _ _
  | .generic _ _ hes =>
    (((List.suffix_cons _ _).trans hes.suffix).trans (List.suffix_cons _ _)).trans
      (List.suffix_append _ _)
  | .pointed _ _ hes =>
    (((List.suffix_cons _ _).trans hes.suffix).trans (List.suffix_append [_, _] _)).trans
      (List.suffix_append _ _)

end

end CustomFunctions.TypeExpr.Grammar
