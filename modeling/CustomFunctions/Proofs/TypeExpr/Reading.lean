import CustomFunctions.Proofs.TypeExpr.Scan

/-!
# Reading types from tokens

What the levels of the parser read, as equations that leave the measures aside, and what they read
from tokens that make up a type, whatever follows.

## Main definitions

- `Outcome.result?` — the type that was read and the tokens behind it
- `Parser.ReadsAsItem`, `Parser.ReadsAsUnion` — the tokens are read as a type at a level
- `Parser.IsBalanced` — the parentheses among the tokens belong together
-/

namespace CustomFunctions.TypeExpr

-- ════════════════════════════════════════════════════════════════════════
-- The levels of the parser
-- ════════════════════════════════════════════════════════════════════════

namespace Outcome

/-- The type that was read and the tokens behind it. -/
def result? {n : Nat} : Outcome n → Option (TypeExpr × List Token)
  | .ok e rest _ => some (e, rest)
  | .fail _ _ => none

@[simp]
theorem result?_widen {m n : Nat} (o : Outcome m) (h : m ≤ n) :
    (o.widen h).result? = o.result? := by
  cases o <;> rfl

end Outcome

namespace Parser

variable {e : TypeExpr} {before : List TypeExpr} {ts rest : List Token}

theorem union_result (ts : List Token) :
    (union ts).result? =
      (item (dropBar ts)).result?.bind fun (e, rest) => (moreMembers [e] rest).result? := by
  rw [union]
  cases item (dropBar ts) with
  | fail rest fits => rfl
  | ok e rest shorter => exact Outcome.result?_widen ..

theorem moreMembers_bar (before : List TypeExpr) (ts : List Token) :
    (moreMembers before (.mark '|' :: ts)).result? =
      (item ts).result?.bind fun (e, rest) => (moreMembers (e :: before) rest).result? := by
  rw [moreMembers]
  cases item ts with
  | fail rest fits => rfl
  | ok e rest shorter => exact Outcome.result?_widen ..

/-- An intersection is not read. -/
theorem moreMembers_and (before : List TypeExpr) (ts : List Token) :
    (moreMembers before (.mark '&' :: ts)).result? = none := by
  rw [moreMembers]
  rfl

theorem moreMembers_end (before : List TypeExpr) (hbar : ts.head? ≠ some (.mark '|'))
    (hand : ts.head? ≠ some (.mark '&')) :
    (moreMembers before ts).result? = some (ofMembers before.reverse, ts) := by
  rw [moreMembers]
  · rfl
  · rintro rest rfl
    exact hbar rfl
  · rintro rest rfl
    exact hand rfl

theorem item_result (ts : List Token) :
    (item ts).result? = (primary ts).result?.map fun (e, rest) => brackets e rest := by
  rw [item]
  cases primary ts <;> rfl

theorem listed_result (closing : Char) (build : List TypeExpr → TypeExpr)
    (before : List TypeExpr) (ts : List Token) :
    (listed closing build before ts).result? = (union ts).result?.bind fun (e, rest) =>
      match rest with
      | .mark c :: rest =>
        if c = ',' then (listed closing build (e :: before) rest).result?
        else if c = closing then some (build (e :: before).reverse, rest)
        else none
      | _ => none := by
  rw [listed]
  cases union ts with
  | fail rest fits => rfl
  | ok e rest shorter =>
    rw [Outcome.result?, Option.bind_some]
    cases rest with
    | nil => rfl
    | cons t rest =>
      cases t with
      | mark c =>
        dsimp only
        split
        · exact Outcome.result?_widen ..
        · split <;> rfl
      | _ => rfl

theorem primary_paren (h : ∀ result, afterClosing? '(' ')' 0 ts ≠ some (.arrow :: result)) :
    (primary (.mark '(' :: ts)).result? =
      (union ts).result?.bind fun (e, rest) => (close ')' e rest).result? := by
  rw [primary]
  split
  · next result hresult => exact absurd hresult (h result)
  · cases union ts with
    | fail rest fits => rfl
    | ok e rest shorter => exact Outcome.result?_widen ..

theorem primary_bracket (h : ts.head? ≠ some (.mark ']')) :
    (primary (.mark '[' :: ts)).result? = (listed ']' .tuple [] ts).result? := by
  rw [primary]
  · exact Outcome.result?_widen ..
  · rintro rest rfl
    exact h rfl

theorem primary_brace (ts : List Token) :
    (primary (.mark '{' :: ts)).result? = (afterClosing? '{' '}' 0 ts).map (.object, ·) := by
  rw [primary]
  split
  · next rest hrest => rw [Outcome.result?, hrest, Option.map_some]
  · next hrest => rw [Outcome.result?, hrest, Option.map_none]

theorem primary_word {name : String} (h : name ∉ reservedWords) (ts : List Token) :
    (primary (.word name :: ts)).result? =
      match qualify name ts with
      | (none, _) => none
      | (some name, .mark '<' :: rest) => (listed '>' (.generic name) [] rest).result?
      | (some name, rest) => some (.named name, rest) := by
  simp only [reservedWords, List.mem_cons, List.not_mem_nil, or_false, not_or] at h
  rw [primary, if_neg (by simp [h]), if_neg (by simp [isOperatorWord, h]), if_neg (by simp [h])]
  split
  · next hqualify => rw [Outcome.result?, hqualify]
  · next hqualify =>
    rw [Outcome.result?_widen, hqualify]
    rfl
  · next hangle hqualify =>
    rw [Outcome.result?, hqualify]
    split
    · next heq => cases heq
    · next heq =>
      cases heq
      exact absurd rfl (hangle _)
    · next heq =>
      cases heq
      rfl

/-- No type begins with a mark other than these. -/
theorem primary_mark {c : Char} (h : c ∉ ['(', '[', '{', '*', '?', '!']) (ts : List Token) :
    (primary (.mark c :: ts)).result? = none := by
  simp only [List.mem_cons, List.not_mem_nil, or_false, not_or] at h
  rw [primary]
  · rw [if_neg (by simp [h])]
    rfl
  all_goals simp_all

theorem primary_emptyTuple (ts : List Token) :
    (primary (.mark '[' :: .mark ']' :: ts)).result? = some (.tuple [], ts) := by
  rw [primary]
  rfl

theorem primary_star (ts : List Token) :
    (primary (.mark '*' :: ts)).result? = some (.named "any", ts) := by
  rw [primary]
  rfl

/-- A `?` or `!` is a type of its own before the end, an equals sign or a bar, and leaves the item
behind it as it is. -/
theorem primary_marker {c : Char} (hc : c = '?' ∨ c = '!') (ts : List Token) :
    (primary (.mark c :: ts)).result? =
      if endsMarker ts then some (.named "any", ts) else (item ts).result? := by
  rcases hc with rfl | rfl
  all_goals
    rw [primary]
    · rw [if_pos (by decide)]
      split
      · rfl
      · exact Outcome.result?_widen ..
    all_goals simp

theorem primary_string (ts : List Token) :
    (primary (.string :: ts)).result? = some (.literal .string, ts) := by
  rw [primary]
  rfl

theorem primary_number (ts : List Token) :
    (primary (.number :: ts)).result? = some (.literal .number, ts) := by
  rw [primary]
  rfl

theorem primary_boolean {name : String} (h : name = "true" ∨ name = "false") (ts : List Token) :
    (primary (.word name :: ts)).result? = some (.literal .boolean, ts) := by
  rw [primary, if_pos h]
  rfl

theorem primary_operator {name : String} (h : isOperatorWord name = true) (ts : List Token) :
    (primary (.word name :: ts)).result? = none := by
  have hboolean : ¬ (name = "true" ∨ name = "false") := by
    rintro (rfl | rfl)
    all_goals revert h; decide
  rw [primary, if_neg hboolean, if_pos h]
  rfl

theorem primary_readonly (ts : List Token) :
    (primary (.word "readonly" :: ts)).result? = (item ts).result? := by
  rw [primary, if_neg (by decide), if_neg (by decide), if_pos rfl]
  exact Outcome.result?_widen ..

theorem primary_nil : (primary []).result? = none := by
  rw [primary]
  rfl

theorem primary_ellipsis (ts : List Token) : (primary (.ellipsis :: ts)).result? = none := by
  rw [primary]
  rfl

theorem whole?_ellipsis (ts : List Token) :
    whole? (.ellipsis :: ts) = (union ts).result?.bind fun (e, rest) =>
      if rest = [] then some (.variadic e) else none := by
  rw [whole?]
  cases union ts with
  | fail rest fits => rfl
  | ok e rest shorter => cases rest <;> rfl

theorem whole?_result (h : ts.head? ≠ some .ellipsis) :
    whole? ts = (union ts).result?.bind fun (e, rest) =>
      if rest = [] then some e else if rest = [.mark '='] then some (.optional e) else none := by
  rw [whole?]
  · cases union ts <;> rfl
  · rintro inner rfl
    exact h rfl

-- ════════════════════════════════════════════════════════════════════════
-- Tokens that make up a type
-- ════════════════════════════════════════════════════════════════════════

/-- None of the given tokens comes next. -/
def NotNext (tokens rest : List Token) : Prop :=
  ∀ t ∈ rest.head?, t ∉ tokens

theorem notNext_cons {tokens : List Token} {t : Token} (h : t ∉ tokens) (rest : List Token) :
    NotNext tokens (t :: rest) := by
  rintro _ ⟨⟩
  exact h

theorem NotNext.mono {tokens tokens' : List Token} (h : NotNext tokens rest)
    (hsub : tokens' ⊆ tokens) : NotNext tokens' rest :=
  fun t ht hmem => h t ht (hsub hmem)

/-- The tokens that go on with a name or make a function type of what stands in parentheses. -/
def primaryGoesOn : List Token :=
  [.mark '.', .mark '<', .arrow]

/-- These, and the bracket that makes an array of an item. -/
def itemGoesOn : List Token :=
  .mark '[' :: primaryGoesOn

/-- These, and the marks that stand between the members of a union or an intersection. -/
def unionGoesOn : List Token :=
  .mark '|' :: .mark '&' :: itemGoesOn

/-- The tokens are read as an item of the type, and the array brackets behind them go on with it. -/
def ReadsAsItem (ts : List Token) (e : TypeExpr) : Prop :=
  ∀ rest, NotNext primaryGoesOn rest → (item (ts ++ rest)).result? = some (brackets e rest)

/-- The tokens are read as a union that is the type. -/
def ReadsAsUnion (ts : List Token) (e : TypeExpr) : Prop :=
  ∀ rest, NotNext unionGoesOn rest → (union (ts ++ rest)).result? = some (e, rest)

theorem brackets_of_notNext (h : NotNext itemGoesOn rest) : brackets e rest = (e, rest) := by
  rw [brackets]
  rintro rest rfl
  exact h _ rfl (List.mem_cons_self ..)

theorem qualify_of_notNext (name : String) (h : rest.head? ≠ some (.mark '.')) :
    qualify name rest = (some name, rest) := by
  rw [qualify]
  all_goals
    intros
    simp_all

theorem moreMembers_of_notNext (before : List TypeExpr) (h : NotNext unionGoesOn rest) :
    (moreMembers before rest).result? = some (ofMembers before.reverse, rest) :=
  moreMembers_end before (fun hbar => h _ hbar (by decide)) (fun hand => h _ hand (by decide))

theorem dropBar_of_ne (h : ts.head? ≠ some (.mark '|')) : dropBar ts = ts := by
  unfold dropBar
  split
  · exact absurd rfl h
  · rfl

/-! ### Unions -/

/-- An item is not empty and begins with no token that begins no type. -/
theorem ReadsAsItem.head_ne {t : Token} (ht : ∀ ts, (primary (t :: ts)).result? = none)
    (h : ReadsAsItem ts e) (rest : List Token) : (ts ++ rest).head? ≠ some t := by
  have hall := h [] nofun
  rw [List.append_nil, item_result] at hall
  cases ts with
  | nil =>
    rw [primary_nil] at hall
    cases hall
  | cons _ ts =>
    rintro ⟨⟩
    rw [ht] at hall
    cases hall

theorem notNext_flatMap {tokens : List Token} {t : Token} (ht : t ∉ tokens)
    (lists : List (List Token)) (hrest : NotNext tokens rest) :
    NotNext tokens (lists.flatMap ([t] ++ ·) ++ rest) := by
  cases lists with
  | nil => exact hrest
  | cons ts lists => exact notNext_cons ht _

/-- Members behind bars are read one after the other. -/
theorem moreMembers_flatMap {lists : List (List Token)} {es : List TypeExpr}
    (h : List.Forall₂ ReadsAsItem lists es) (hrest : NotNext unionGoesOn rest)
    (before : List TypeExpr) :
    (moreMembers before (lists.flatMap ([.mark '|'] ++ ·) ++ rest)).result? =
      some (ofMembers (before.reverse ++ es), rest) := by
  induction h generalizing before with
  | nil =>
    rw [List.append_nil]
    exact moreMembers_of_notNext before hrest
  | @cons ts e lists es hitem _ ih =>
    have hnext : NotNext itemGoesOn (lists.flatMap ([.mark '|'] ++ ·) ++ rest) :=
      notNext_flatMap (by decide) lists (hrest.mono (by decide))
    rw [List.flatMap_cons, List.append_assoc, List.append_assoc, List.singleton_append,
      moreMembers_bar, hitem _ (hnext.mono (by decide)), Option.bind_some,
      brackets_of_notNext hnext]
    refine (ih (e :: before)).trans ?_
    rw [List.reverse_cons, List.append_assoc, List.singleton_append]

/-- Items with bars between them are read as their union, and one item alone as itself. -/
theorem readsAsUnion_intercalate {lists : List (List Token)} {es : List TypeExpr}
    (h : List.Forall₂ ReadsAsItem lists es) (hne : es ≠ []) :
    ReadsAsUnion (List.intercalate [.mark '|'] lists) (ofMembers es) := by
  intro rest hrest
  cases h with
  | nil => exact absurd rfl hne
  | @cons ts e lists es hitem hitems =>
    have hnext : NotNext itemGoesOn (lists.flatMap ([.mark '|'] ++ ·) ++ rest) :=
      notNext_flatMap (by decide) lists (hrest.mono (by decide))
    rw [Text.intercalate_cons, List.append_assoc, union_result,
      dropBar_of_ne (hitem.head_ne (primary_mark (by decide)) _), hitem _ (hnext.mono (by decide)), Option.bind_some,
      brackets_of_notNext hnext]
    exact moreMembers_flatMap hitems hrest [e]

theorem ReadsAsItem.union (h : ReadsAsItem ts e) : ReadsAsUnion ts e := by
  have hunion := readsAsUnion_intercalate (.cons h .nil) (List.cons_ne_nil e [])
  rwa [List.intercalate_singleton] at hunion

/-! ### Lists of types -/

/-- Types with commas between them are read up to the closing mark. -/
theorem listed_intercalate {closing : Char} (hclosing : closing = ']' ∨ closing = '>')
    (build : List TypeExpr → TypeExpr) (rest : List Token) {lists : List (List Token)}
    {es : List TypeExpr} (h : List.Forall₂ ReadsAsUnion lists es) (hne : es ≠ [])
    (before : List TypeExpr) :
    (listed closing build before
      (List.intercalate [.mark ','] lists ++ .mark closing :: rest)).result? =
        some (build (before.reverse ++ es), rest) := by
  have hends : .mark closing ∉ unionGoesOn ∧ closing ≠ ',' := by
    rcases hclosing with rfl | rfl <;> decide
  induction h generalizing before with
  | nil => exact absurd rfl hne
  | @cons ts e lists es hunion hunions ih =>
    cases hunions with
    | nil =>
      rw [List.intercalate_singleton, listed_result, hunion _ (notNext_cons hends.1 _),
        Option.bind_some]
      simp [hends.2]
    | cons _ _ =>
      rw [List.intercalate_cons_cons, List.append_assoc, List.append_assoc, List.singleton_append,
        listed_result, hunion _ (notNext_cons (by decide) _), Option.bind_some]
      have hmore := ih (List.cons_ne_nil _ _) (e :: before)
      simpa using hmore

/-- A union is not empty either and begins with no such token, a bar aside. -/
theorem ReadsAsUnion.head_ne {t : Token} (ht : ∀ ts, (primary (t :: ts)).result? = none)
    (hbar : t ≠ .mark '|') (h : ReadsAsUnion ts e) (rest : List Token) :
    (ts ++ rest).head? ≠ some t := by
  have hall := h [] nofun
  rw [List.append_nil, union_result, item_result] at hall
  cases ts with
  | nil =>
    rw [dropBar_of_ne (by simp), primary_nil] at hall
    cases hall
  | cons _ ts =>
    rintro ⟨⟩
    rw [dropBar_of_ne (by simpa using hbar), ht] at hall
    cases hall

/-! ### Items -/

/-- What is read as a primary type is read as an item. -/
theorem readsAsItem_of_primary
    (h : ∀ rest, NotNext primaryGoesOn rest → (primary (ts ++ rest)).result? = some (e, rest)) :
    ReadsAsItem ts e := by
  intro rest hrest
  rw [item_result, h rest hrest, Option.map_some]

/-- Brackets behind an item make an array of it. -/
theorem ReadsAsItem.array (h : ReadsAsItem ts e) :
    ReadsAsItem (ts ++ [.mark '[', .mark ']']) (.array e) := by
  intro rest _
  rw [List.append_assoc]
  exact h _ (notNext_cons (by decide) _)

/-- Parentheses in the tokens do not close others around them. -/
def IsBalanced (ts : List Token) : Prop :=
  ∀ depth rest, afterClosing? '(' ')' depth (ts ++ rest) = afterClosing? '(' ')' depth rest

/-- Parentheses around a type make an item of it. -/
theorem ReadsAsUnion.enclosed (h : ReadsAsUnion ts e) (hbalanced : IsBalanced ts) :
    ReadsAsItem (.mark '(' :: (ts ++ [.mark ')'])) e := by
  refine readsAsItem_of_primary fun rest hrest => ?_
  rw [List.cons_append, List.append_assoc, List.singleton_append, primary_paren]
  · rw [h _ (notNext_cons (by decide) _)]
    rfl
  · intro result hresult
    rw [hbalanced] at hresult
    obtain rfl := Option.some.inj hresult
    exact hrest _ rfl (by decide)

theorem readsAsItem_tuple {lists : List (List Token)} {es : List TypeExpr}
    (h : List.Forall₂ ReadsAsUnion lists es) :
    ReadsAsItem (.mark '[' :: (List.intercalate [.mark ','] lists ++ [.mark ']'])) (.tuple es) := by
  refine readsAsItem_of_primary fun rest _ => ?_
  rw [List.cons_append, List.append_assoc, List.singleton_append]
  cases h with
  | nil =>
    rw [List.intercalate_nil, List.nil_append, primary]
    rfl
  | cons hunion hunions =>
    rw [primary_bracket, listed_intercalate (.inl rfl) _ _ (.cons hunion hunions) (List.cons_ne_nil _ _)]
    · rfl
    · rw [Text.intercalate_cons, List.append_assoc]
      exact hunion.head_ne (primary_mark (by decide)) (by decide) _

theorem readsAsItem_object : ReadsAsItem [.mark '{', .ellipsis, .mark '}'] .object := by
  refine readsAsItem_of_primary fun rest _ => ?_
  rw [List.cons_append, primary_brace]
  rfl

/-! ### Names -/

/-- The parts of a name behind points are put together with what stands before them. -/
theorem qualify_flatMap (name : List Char) (parts : List (List Char))
    (hrest : rest.head? ≠ some (.mark '.')) :
    qualify (String.ofList name)
      ((parts.map fun part => [.word (String.ofList part)]).flatMap ([.mark '.'] ++ ·) ++ rest) =
        (some (String.ofList (name ++ parts.flatMap (['.'] ++ ·))), rest) := by
  induction parts generalizing name with
  | nil =>
    rw [List.flatMap_nil, List.append_nil]
    exact qualify_of_notNext _ hrest
  | cons part parts ih =>
    have hname : String.ofList name ++ "." ++ String.ofList part =
        String.ofList (name ++ (['.'] ++ part)) := by
      rw [String.ofList_append, String.ofList_append, String.append_assoc]
    rw [List.map_cons, List.flatMap_cons, List.flatMap_cons, ← List.append_assoc name, ← ih,
      ← hname]
    rfl

/-- A name begins with a word that is not reserved and goes on with parts behind points. -/
theorem exists_nameTokens {name : String} (h : isName name = true) :
    ∃ first more, nameTokens name = .word first :: more ∧ first ∉ reservedWords ∧
      ∀ rest, rest.head? ≠ some (.mark '.') → qualify first (more ++ rest) = (some name, rest) := by
  rw [isName, Bool.and_eq_true] at h
  obtain ⟨first, parts, hparts⟩ := List.exists_cons_of_ne_nil (Text.splitOn_ne_nil '.' name.toList)
  change nameParts name = first :: parts at hparts
  have hname := intercalate_nameParts name
  rw [hparts, Text.intercalate_cons] at hname
  rw [nameTokens, hparts, List.map_cons, Text.intercalate_cons, List.singleton_append]
  refine ⟨_, _, rfl, ?_, fun rest hrest => ?_⟩
  · simpa [hparts] using h.2
  · rw [qualify_flatMap first parts hrest, hname, String.ofList_toList]

theorem readsAsItem_name {name : String} (h : isName name = true) :
    ReadsAsItem (nameTokens name) (.named name) := by
  refine readsAsItem_of_primary fun rest hrest => ?_
  obtain ⟨first, more, htokens, hfirst, hqualify⟩ := exists_nameTokens h
  rw [htokens, List.cons_append, primary_word hfirst, hqualify rest]
  · split
    · next heq => cases heq
    · next heq =>
      cases heq
      exact absurd (by decide) (hrest _ rfl)
    · next heq =>
      cases heq
      rfl
  · exact fun hpoint => hrest _ hpoint (by decide)

theorem readsAsItem_generic {name : String} (hname : isName name = true)
    {lists : List (List Token)} {args : List TypeExpr} (h : List.Forall₂ ReadsAsUnion lists args)
    (hne : args ≠ []) :
    ReadsAsItem (nameTokens name ++ .mark '<' :: (List.intercalate [.mark ','] lists ++ [.mark '>']))
      (.generic name args) := by
  refine readsAsItem_of_primary fun rest _ => ?_
  obtain ⟨first, more, htokens, hfirst, hqualify⟩ := exists_nameTokens hname
  rw [htokens, List.append_assoc, List.cons_append, primary_word hfirst, hqualify _ (by simp)]
  have hlisted := listed_intercalate (.inr rfl) (.generic name) rest h hne []
  simpa using hlisted

/-! ### Parentheses -/

theorem isBalanced_nil : IsBalanced [] :=
  fun _ _ => rfl

theorem IsBalanced.append {ts' : List Token} (h : IsBalanced ts) (h' : IsBalanced ts') :
    IsBalanced (ts ++ ts') := by
  intro depth rest
  rw [List.append_assoc, h, h']

theorem isBalanced_singleton {t : Token} (h : t ∉ [Token.mark '(', .mark ')']) :
    IsBalanced [t] := by
  simp only [List.mem_cons, List.not_mem_nil, or_false, not_or] at h
  intro depth rest
  rw [List.singleton_append, afterClosing?.eq_def]
  dsimp only
  rw [if_neg h.2, if_neg h.1]

theorem IsBalanced.enclosed (h : IsBalanced ts) : IsBalanced (.mark '(' :: (ts ++ [.mark ')'])) := by
  intro depth rest
  rw [List.cons_append, List.append_assoc, List.singleton_append]
  exact h (depth + 1) (.mark ')' :: rest)

theorem isBalanced_intercalate {t : Token} (ht : t ∉ [Token.mark '(', .mark ')'])
    {lists : List (List Token)} (h : ∀ ts ∈ lists, IsBalanced ts) :
    IsBalanced (List.intercalate [t] lists) := by
  induction lists with
  | nil => exact isBalanced_nil
  | cons ts lists ih =>
    rw [List.forall_mem_cons] at h
    cases lists with
    | nil =>
      rw [List.intercalate_singleton]
      exact h.1
    | cons _ _ =>
      rw [List.intercalate_cons_cons]
      exact (h.1.append (isBalanced_singleton ht)).append (ih h.2)

end Parser

end CustomFunctions.TypeExpr
