import CustomFunctions.Proofs.TypeExpr.Shape
import CustomFunctions.Proofs.TypeExpr.Walk

/-!
# Walks that follow the parser

A walk along the tokens does what the parser does on the tokens that begin at its position: it comes to
the type that the parser reads, if it reads one, and stops where the tokens begin that the parser leaves.
Brackets are counted only from an opening one on, so that the count is positive wherever it is lowered.

## Main definitions

- `Outcome.type?` — the type that was read
- `Walk.Follows` — from where some tokens begin, a walk does what was done on them

## Main results

- `Walk.balanced_eq` — counting brackets finds what stands behind the closing one
- `Walk.union_follows`, `Walk.item_follows`, `Walk.primary_follows` — the levels of the grammar
-/

namespace CustomFunctions.TypeExpr

theorem Parser.brackets_suffix (e : TypeExpr) (ts : List Token) : (brackets e ts).2 <:+ ts := by
  fun_induction brackets e ts with
  | case1 e ts ih => exact ih.trans (List.suffix_append [_, _] ts)
  | case2 => exact List.suffix_rfl

/-- The type that was read. -/
def Outcome.type? {n : Nat} : Outcome n → Option TypeExpr
  | .ok e _ _ => some e
  | .fail _ _ => none

namespace Walk

open Checked

variable {α β : Type} {tokens ts rest : List Token} {t u : Token} {c : Char} {e : TypeExpr} {n p q : Nat}

-- ════════════════════════════════════════════════════════════════════════
-- Single steps
-- ════════════════════════════════════════════════════════════════════════

theorem run_bind_some {w : Walk α} {f : α → Walk β} {a : α} (h : w.run tokens p = .ok (some a, q)) :
    (w >>= f).run tokens p = (f a).run tokens q := by
  show (andThen w f).run tokens p = _
  simp only [andThen, h]

theorem run_bind_none {w : Walk α} {f : α → Walk β} (h : w.run tokens p = .ok (none, q)) :
    (w >>= f).run tokens p = .ok (none, q) := by
  show (andThen w f).run tokens p = _
  simp only [andThen, h]

theorem run_peek (h : ts <:+ tokens) (ahead : Nat) :
    (peek ahead).run tokens (place tokens ts) = .ok (some ts[ahead]?, place tokens ts) := by
  show Except.ok (some tokens[place tokens ts + ahead]?, _) = _
  rw [getElem?_place h]

theorem run_peek_head (h : ts <:+ tokens) :
    (peek 0).run tokens (place tokens ts) = .ok (some ts.head?, place tokens ts) := by
  rw [run_peek h, List.head?_eq_getElem?]

theorem run_pass (h : t :: ts <:+ tokens) :
    (pass 1).run tokens (place tokens (t :: ts)) = .ok (some (), place tokens ts) := by
  show Except.ok (some (), place tokens (t :: ts) + 1) = _
  rw [place_cons h]

theorem run_pass_two (h : t :: u :: ts <:+ tokens) :
    (pass 2).run tokens (place tokens (t :: u :: ts)) = .ok (some (), place tokens ts) := by
  rw [← place_cons ((List.suffix_cons t _).trans h), ← place_cons h]
  rfl

theorem run_eat (h : .mark c :: ts <:+ tokens) :
    (eat c).run tokens (place tokens (.mark c :: ts)) = .ok (some true, place tokens ts) := by
  rw [eat, run_bind_some (run_peek_head h), if_pos List.head?_cons, run_bind_some (run_pass h)]
  rfl

theorem head?_ne (h : ∀ us, ts ≠ t :: us) : ts.head? ≠ some t := by
  intro hhead
  obtain ⟨us, rfl⟩ := List.head?_eq_some_iff.mp hhead
  exact h us rfl

theorem run_eat_of_ne (h : ts <:+ tokens) (hne : ts.head? ≠ some (.mark c)) :
    (eat c).run tokens (place tokens ts) = .ok (some false, place tokens ts) := by
  rw [eat, run_bind_some (run_peek_head h), if_neg hne]
  rfl

theorem run_eat_bar (h : ts <:+ tokens) :
    ∃ found, (eat '|').run tokens (place tokens ts) =
      .ok (some found, place tokens (Parser.dropBar ts)) := by
  by_cases hbar : ts.head? = some (.mark '|')
  · obtain ⟨rest, rfl⟩ := List.head?_eq_some_iff.mp hbar
    exact ⟨true, run_eat h⟩
  · rw [Parser.dropBar_of_ne hbar]
    exact ⟨false, run_eat_of_ne h hbar⟩

-- ════════════════════════════════════════════════════════════════════════
-- Counting brackets
-- ════════════════════════════════════════════════════════════════════════

/-- Inside an open bracket the count is positive wherever it is lowered. -/
theorem balanced_eq {opening closing : Char} (hne : opening ≠ closing) (depth : Nat)
    (h : ts <:+ tokens) :
    balanced opening closing (depth + 1) (place tokens ts) ts =
      .ok (match Parser.afterClosing? opening closing depth ts with
        | some rest => (some (), place tokens rest)
        | none => (none, place tokens [])) := by
  have hmarks : Token.mark closing ≠ .mark opening := by simpa using hne.symm
  fun_induction Parser.afterClosing? opening closing depth ts with
  | case1 => rfl
  | case2 ts =>
    rw [balanced, if_neg hmarks, if_pos rfl, place_cons h]
    rfl
  | case3 ts depth ih =>
    rw [balanced, if_neg hmarks, if_pos rfl, place_cons h]
    exact ih ((List.suffix_cons _ _).trans h)
  | case4 depth ts _ ih =>
    rw [balanced, if_pos rfl, place_cons h]
    exact ih ((List.suffix_cons _ _).trans h)
  | case5 depth t ts hclosing hopening ih =>
    rw [balanced, if_neg hopening, if_neg hclosing, place_cons h]
    exact ih ((List.suffix_cons _ _).trans h)

theorem balanced_cons {opening closing : Char} (hne : opening ≠ closing)
    (h : .mark opening :: ts <:+ tokens) :
    balanced opening closing 0 (place tokens (.mark opening :: ts)) (.mark opening :: ts) =
      .ok (match Parser.afterClosing? opening closing 0 ts with
        | some rest => (some (), place tokens rest)
        | none => (none, place tokens [])) := by
  rw [balanced, if_pos rfl, place_cons h]
  exact balanced_eq hne 0 ((List.suffix_cons _ _).trans h)

theorem run_skipBalanced {opening closing : Char} (hne : opening ≠ closing)
    (h : .mark opening :: ts <:+ tokens) :
    (skipBalanced opening closing).run tokens (place tokens (.mark opening :: ts)) =
      .ok (match Parser.afterClosing? opening closing 0 ts with
        | some rest => (some (), place tokens rest)
        | none => (none, place tokens [])) := by
  show balanced opening closing 0 _ (tokens.drop _) = _
  rw [drop_place h]
  exact balanced_cons hne h

theorem run_looksLikeFunction (h : .mark '(' :: ts <:+ tokens) :
    looksLikeFunction.run tokens (place tokens (.mark '(' :: ts)) =
      .ok (some ((Parser.afterClosing? '(' ')' 0 ts).any fun rest => rest.head? = some .arrow),
        place tokens (.mark '(' :: ts)) := by
  rw [looksLikeFunction]
  dsimp only
  rw [dropTo_place h]
  show (balanced '(' ')' 0 _ _ >>= _) = _
  rw [balanced_cons (by decide) h]
  cases hclosing : Parser.afterClosing? '(' ')' 0 ts with
  | none => rfl
  | some rest =>
    have hrest : rest <:+ tokens :=
      (Parser.afterClosing?_suffix hclosing).trans ((List.suffix_cons _ _).trans h)
    have hhead : tokens[place tokens rest]? = rest.head? := by
      rw [List.head?_eq_getElem?]
      exact getElem?_place hrest 0
    show Except.ok (some (decide (tokens[place tokens rest]? = some .arrow)), _) = _
    rw [hhead]
    rfl

-- ════════════════════════════════════════════════════════════════════════
-- Loops
-- ════════════════════════════════════════════════════════════════════════

theorem exists_of_second (h : (t :: ts)[1]? = some u) : ∃ rest, ts = u :: rest := by
  rw [List.getElem?_cons_succ, ← List.head?_eq_getElem?] at h
  exact List.head?_eq_some_iff.mp h

theorem run_arrays (h : ts <:+ tokens) (hn : ts.length < n) :
    (arrays n e).run tokens (place tokens ts) =
      .ok (some (Parser.brackets e ts).1, place tokens (Parser.brackets e ts).2) := by
  fun_induction Parser.brackets e ts generalizing n with
  | case1 e ts ih =>
    cases n with
    | zero => omega
    | succ n =>
      rw [List.length_cons, List.length_cons] at hn
      rw [arrays, run_bind_some (run_peek h 0), run_bind_some (run_peek h 1), if_pos ⟨rfl, rfl⟩,
        run_bind_some (run_pass_two h)]
      exact ih ((List.suffix_append [_, _] ts).trans h) (by omega)
  | case2 e ts hnext =>
    cases n with
    | zero => omega
    | succ n =>
      rw [arrays, run_bind_some (run_peek h 0), run_bind_some (run_peek h 1), if_neg]
      · rfl
      · rintro ⟨hopening, hclosing⟩
        rw [← List.head?_eq_getElem?] at hopening
        obtain ⟨us, rfl⟩ := List.head?_eq_some_iff.mp hopening
        obtain ⟨rest, rfl⟩ := exists_of_second hclosing
        exact hnext rest rfl

theorem run_qualify {name : String} (h : ts <:+ tokens) (hn : ts.length < n) :
    (qualify n name).run tokens (place tokens ts) =
      .ok ((Parser.qualify name ts).1, place tokens (Parser.qualify name ts).2) := by
  fun_induction Parser.qualify name ts generalizing n with
  | case1 name part ts ih =>
    cases n with
    | zero => omega
    | succ n =>
      rw [List.length_cons, List.length_cons] at hn
      rw [qualify, run_bind_some (run_peek_head h), if_pos List.head?_cons,
        run_bind_some (run_peek h 1)]
      show (pass 2 >>= _).run _ _ = _
      rw [run_bind_some (run_pass_two h)]
      exact ih ((List.suffix_append [_, _] ts).trans h) (by omega)
  | case2 name ts =>
    cases n with
    | zero => omega
    | succ n =>
      rw [qualify, run_bind_some (run_peek_head h), if_pos List.head?_cons,
        run_bind_some (run_peek h 1)]
      show (pass 1 >>= _).run _ _ = _
      rw [run_bind_some (run_pass h)]
      rfl
  | case3 name ts hword hangle =>
    cases n with
    | zero => omega
    | succ n =>
      rw [qualify, run_bind_some (run_peek_head h), if_pos List.head?_cons,
        run_bind_some (run_peek h 1)]
      split
      · next part hpart =>
        obtain ⟨rest, rfl⟩ := exists_of_second hpart
        exact absurd rfl (hword part rest)
      · next hpart =>
        obtain ⟨rest, rfl⟩ := exists_of_second hpart
        exact absurd rfl (hangle rest)
      · rfl
  | case4 name ts hword hangle hpoint =>
    cases n with
    | zero => omega
    | succ n =>
      rw [qualify, run_bind_some (run_peek_head h), if_neg (head?_ne hpoint)]
      rfl

-- ════════════════════════════════════════════════════════════════════════
-- Walks that follow the parser
-- ════════════════════════════════════════════════════════════════════════

/-- From where some end of the tokens begins, the walk comes to the type that was read from it, if one
was read, and stops where the tokens begin that are left, which are an end of that end. -/
structure Follows (w : Walk TypeExpr) (tokens ts : List Token) {size : Nat} (o : Outcome size) :
    Prop where
  suffix : o.rest <:+ ts
  run_eq : w.run tokens (place tokens ts) = .ok (o.type?, place tokens o.rest)

variable {size : Nat} {o : Outcome size} {w inner : Walk TypeExpr}

theorem Follows.widen {size' : Nat} (h : w.Follows tokens ts o) (hle : size ≤ size') :
    w.Follows tokens ts (o.widen hle) := by
  cases o <;> exact ⟨h.suffix, h.run_eq⟩

/-- A walk that goes on as another one does follows what the other one follows. -/
theorem Follows.of_run_eq {w' : Walk TypeExpr} {ts' : List Token} (h : w'.Follows tokens ts' o)
    (hts : ts' <:+ ts) (hrun : w.run tokens (place tokens ts) = w'.run tokens (place tokens ts')) :
    w.Follows tokens ts o :=
  ⟨h.suffix.trans hts, hrun.trans h.run_eq⟩

theorem Follows.bind_fail {size' : Nat} {fits : rest.length ≤ size} {fits' : rest.length ≤ size'}
    (h : w.Follows tokens ts (.fail rest fits)) (f : TypeExpr → Walk TypeExpr) :
    (w >>= f).Follows tokens ts (.fail rest fits') :=
  ⟨h.suffix, run_bind_none h.run_eq⟩

theorem Follows.bind_ok {size' : Nat} {o' : Outcome size'} {shorter : rest.length < size}
    {f : TypeExpr → Walk TypeExpr} (h : w.Follows tokens ts (.ok e rest shorter))
    (hnext : (f e).Follows tokens rest o') : (w >>= f).Follows tokens ts o' :=
  hnext.of_run_eq h.suffix (run_bind_some h.run_eq)

theorem run_ignoring {w : Walk α} {a : Option α} (h : w.run tokens p = .ok (a, q)) :
    (ignoring w).run tokens p = .ok (some (), q) := by
  show (w.run tokens p).map _ = _
  rw [h]
  rfl

/-- What is left of the result of a function type counts, whether or not the result has been read. -/
theorem run_function {result : List Token} (h : .mark '(' :: ts <:+ tokens)
    (hclosing : Parser.afterClosing? '(' ')' 0 ts = some (.arrow :: result))
    (hinner : inner.Follows tokens result o) :
    (function inner).run tokens (place tokens (.mark '(' :: ts)) =
      .ok (some .function, place tokens o.rest) := by
  have hskip := run_skipBalanced (by decide : '(' ≠ ')') h
  rw [hclosing] at hskip
  have harrow : .arrow :: result <:+ tokens :=
    (Parser.afterClosing?_suffix hclosing).trans ((List.suffix_cons _ _).trans h)
  rw [function, run_bind_some (run_ignoring hskip), run_bind_some (run_peek_head harrow),
    if_pos List.head?_cons, run_bind_some (run_pass harrow),
    run_bind_some (run_ignoring hinner.run_eq)]
  rfl

theorem close_follows (h : ts <:+ tokens) (closing : Char) (e : TypeExpr) :
    (close closing e).Follows tokens ts (Parser.close closing e ts) := by
  by_cases hhead : ts.head? = some (.mark closing)
  · obtain ⟨rest, rfl⟩ := List.head?_eq_some_iff.mp hhead
    rw [Parser.close, if_pos rfl]
    refine ⟨List.suffix_cons _ _, ?_⟩
    rw [close, run_bind_some (run_eat h), if_pos rfl]
    rfl
  · have hrun : (close closing e).run tokens (place tokens ts) = .ok (none, place tokens ts) := by
      rw [close, run_bind_some (run_eat_of_ne h hhead), if_neg Bool.false_ne_true]
      rfl
    unfold Parser.close
    split
    · next c rest =>
      rw [if_neg (by rintro rfl; exact hhead rfl)]
      exact ⟨List.suffix_rfl, hrun⟩
    · exact ⟨List.suffix_rfl, hrun⟩

theorem run_delimited (h : .mark ',' :: ts <:+ tokens) (closing : Char) (e : TypeExpr) :
    (delimited closing w e).run tokens (place tokens (.mark ',' :: ts)) =
      w.run tokens (place tokens ts) := by
  rw [delimited, run_bind_some (run_eat h), if_pos rfl]

theorem delimited_follows (h : ts <:+ tokens) (hcomma : ts.head? ≠ some (.mark ',')) (closing : Char)
    (e : TypeExpr) : (delimited closing w e).Follows tokens ts (Parser.close closing e ts) := by
  refine (close_follows h closing e).of_run_eq List.suffix_rfl ?_
  rw [delimited, run_bind_some (run_eat_of_ne h hcomma), if_neg Bool.false_ne_true]

theorem parens_follows (h : .mark '(' :: ts <:+ tokens)
    (hinner : ∀ us, us <:+ ts → inner.Follows tokens us (Parser.union us)) :
    (parens inner).Follows tokens (.mark '(' :: ts) (Parser.primary (.mark '(' :: ts)) := by
  have hts : ts <:+ .mark '(' :: ts := List.suffix_cons _ _
  have hlooks := run_looksLikeFunction h
  rw [Parser.primary]
  split
  · next result hclosing =>
    have hresult : result <:+ ts := (List.suffix_cons _ _).trans (Parser.afterClosing?_suffix hclosing)
    have hfollows := hinner result hresult
    have hrun := run_function h hclosing hfollows
    refine ⟨(hfollows.suffix.trans hresult).trans hts, ?_⟩
    rw [hclosing] at hlooks
    rw [parens, run_bind_some hlooks, if_pos (by rfl)]
    exact hrun
  · next hnot =>
    have hno : ((Parser.afterClosing? '(' ')' 0 ts).any fun rest => rest.head? = some .arrow)
        = false := by
      rw [Option.any_eq_false]
      intro rest hrest
      rw [decide_eq_false_iff_not]
      intro hhead
      obtain ⟨result, rfl⟩ := List.head?_eq_some_iff.mp hhead
      exact hnot result hrest
    rw [hno] at hlooks
    have hrun : (parens inner).run tokens (place tokens (.mark '(' :: ts)) =
        (inner >>= close ')').run tokens (place tokens ts) := by
      rw [parens, run_bind_some hlooks, if_neg Bool.false_ne_true, run_bind_some (run_pass h)]
    have hfollows := hinner ts List.suffix_rfl
    split
    · next rest fits heq =>
      rw [heq] at hfollows
      exact (hfollows.bind_fail _).of_run_eq hts hrun
    · next e rest shorter heq =>
      rw [heq] at hfollows
      have hclose := close_follows (hfollows.suffix.trans (hts.trans h)) ')' e
      exact ((hfollows.bind_ok hclose).of_run_eq hts hrun).widen _

theorem tuple_follows (h : .mark '[' :: ts <:+ tokens)
    (hmembers : inner.Follows tokens ts (Parser.listed ']' .tuple [] ts)) :
    (tuple inner).Follows tokens (.mark '[' :: ts) (Parser.primary (.mark '[' :: ts)) := by
  have hts : ts <:+ .mark '[' :: ts := List.suffix_cons _ _
  by_cases hhead : ts.head? = some (.mark ']')
  · obtain ⟨rest, rfl⟩ := List.head?_eq_some_iff.mp hhead
    rw [Parser.primary]
    refine ⟨List.suffix_append [_, _] rest, ?_⟩
    rw [tuple, run_bind_some (run_pass h), run_bind_some (run_eat (hts.trans h)), if_pos rfl]
    rfl
  · rw [Parser.primary]
    · refine (hmembers.of_run_eq hts ?_).widen _
      rw [tuple, run_bind_some (run_pass h), run_bind_some (run_eat_of_ne (hts.trans h) hhead),
        if_neg Bool.false_ne_true]
    · rintro rest rfl
      exact hhead rfl

theorem object_follows (h : .mark '{' :: ts <:+ tokens) :
    object.Follows tokens (.mark '{' :: ts) (Parser.primary (.mark '{' :: ts)) := by
  have hskip := run_skipBalanced (by decide : '{' ≠ '}') h
  rw [Parser.primary]
  split
  · next rest hclosing =>
    rw [hclosing] at hskip
    exact ⟨(Parser.afterClosing?_suffix hclosing).trans (List.suffix_cons _ _),
      run_bind_some hskip⟩
  · next hclosing =>
    rw [hclosing] at hskip
    exact ⟨List.nil_suffix, run_bind_none hskip⟩

theorem marked_follows (hc : c = '?' ∨ c = '!') (h : .mark c :: ts <:+ tokens)
    (hinner : inner.Follows tokens ts (Parser.item ts)) :
    (marked inner).Follows tokens (.mark c :: ts) (Parser.primary (.mark c :: ts)) := by
  have hts : ts <:+ .mark c :: ts := List.suffix_cons _ _
  have hrun : (marked inner).run tokens (place tokens (.mark c :: ts)) =
      (if Parser.endsMarker ts then return .named "any" else inner : Walk TypeExpr).run tokens
        (place tokens ts) := by
    rw [marked, run_bind_some (run_pass h), run_bind_some (run_peek_head (hts.trans h))]
    cases ts with
    | nil => rfl
    | cons t ts => simp [Parser.endsMarker]
  have hprimary : Parser.primary (.mark c :: ts) =
      if Parser.endsMarker ts then .ok (.named "any") ts (Nat.lt_succ_self _)
      else (Parser.item ts).widen (Nat.le_succ _) := by
    rcases hc with rfl | rfl
    all_goals
      rw [Parser.primary]
      · rw [if_pos (by decide)]
      all_goals simp
  rw [hprimary]
  by_cases hends : Parser.endsMarker ts = true
  · rw [if_pos hends] at hrun ⊢
    exact ⟨hts, hrun⟩
  · rw [if_neg hends] at hrun ⊢
    exact (hinner.of_run_eq hts hrun).widen _

theorem single_follows (h : t :: ts <:+ tokens)
    (hprimary : Parser.primary (t :: ts) = .ok e ts (Nat.lt_succ_self _)) :
    (single e).Follows tokens (t :: ts) (Parser.primary (t :: ts)) := by
  rw [hprimary]
  exact ⟨List.suffix_cons _ _, run_bind_some (run_pass h)⟩

theorem reference_follows {name : String} {parts : String → Walk String}
    {args : String → Walk TypeExpr} (h : .word name :: ts <:+ tokens)
    (hparts : (parts name).run tokens (place tokens ts) =
      .ok ((Parser.qualify name ts).1, place tokens (Parser.qualify name ts).2))
    (hinner : inner.Follows tokens ts (Parser.item ts))
    (hargs : ∀ full us, .mark '<' :: us <:+ ts →
      (args full).Follows tokens us (Parser.listed '>' (.generic full) [] us)) :
    (reference name parts inner args).Follows tokens (.word name :: ts)
      (Parser.primary (.word name :: ts)) := by
  have hts : ts <:+ .word name :: ts := List.suffix_cons _ _
  have hpass := run_pass h
  rw [Parser.primary]
  by_cases hboolean : name = "true" ∨ name = "false"
  · rw [if_pos hboolean]
    refine ⟨hts, ?_⟩
    rw [reference, run_bind_some hpass, if_pos hboolean]
    rfl
  rw [if_neg hboolean]
  by_cases hoperator : Parser.isOperatorWord name = true
  · rw [if_pos hoperator]
    refine ⟨hts, ?_⟩
    rw [reference, run_bind_some hpass, if_neg hboolean, if_pos hoperator]
    rfl
  rw [if_neg hoperator]
  by_cases hreadonly : name = "readonly"
  · rw [if_pos hreadonly]
    refine (hinner.of_run_eq hts ?_).widen _
    rw [reference, run_bind_some hpass, if_neg hboolean, if_neg hoperator, if_pos hreadonly]
  rw [if_neg hreadonly]
  have hrun : (reference name parts inner args).run tokens (place tokens (.word name :: ts)) =
      (do
        let name ← parts name
        if ← eat '<' then args name else return .named name : Walk TypeExpr).run tokens
          (place tokens ts) := by
    rw [reference, run_bind_some hpass, if_neg hboolean, if_neg hoperator, if_neg hreadonly]
  split
  · next rest hqualify =>
    rw [hqualify] at hparts
    exact ⟨(Parser.qualify_suffix hqualify).trans hts, hrun.trans (run_bind_none hparts)⟩
  · next full us hqualify =>
    rw [hqualify] at hparts
    have hopening := Parser.qualify_suffix hqualify
    have hus : us <:+ .word name :: ts := (List.suffix_cons _ _).trans (hopening.trans hts)
    refine ((hargs full us hopening).of_run_eq hus ?_).widen _
    rw [hrun, run_bind_some hparts, run_bind_some (run_eat (hopening.trans (hts.trans h))),
      if_pos rfl]
  · next full rest hangle hqualify =>
    rw [hqualify] at hparts
    have hrest := Parser.qualify_suffix hqualify
    refine ⟨hrest.trans hts, ?_⟩
    rw [hrun, run_bind_some hparts,
      run_bind_some (run_eat_of_ne (hrest.trans (hts.trans h)) (head?_ne hangle)),
      if_neg Bool.false_ne_true]
    rfl

theorem starting_follows {items members : Walk TypeExpr} (parts : String → Walk String)
    (args : String → Walk TypeExpr) (h : ts <:+ tokens)
    (hinner : ∀ us, us <:+ tokens → us.length < ts.length →
      inner.Follows tokens us (Parser.union us))
    (hitems : ∀ us, us <:+ tokens → us.length < ts.length →
      items.Follows tokens us (Parser.item us))
    (hmembers : ∀ us, us <:+ tokens → us.length < ts.length →
      members.Follows tokens us (Parser.listed ']' .tuple [] us))
    (hparts : ∀ name us, us <:+ tokens → us.length < ts.length →
      (parts name).run tokens (place tokens us) =
        .ok ((Parser.qualify name us).1, place tokens (Parser.qualify name us).2))
    (hargs : ∀ full us, us <:+ tokens → us.length < ts.length →
      (args full).Follows tokens us (Parser.listed '>' (.generic full) [] us)) :
    (starting inner items members parts args ts.head?).Follows tokens ts (Parser.primary ts) := by
  cases ts with
  | nil =>
    rw [Parser.primary]
    exact ⟨List.suffix_rfl, rfl⟩
  | cons t us =>
    have hus : us <:+ tokens := (List.suffix_cons t us).trans h
    have hlt : us.length < (t :: us).length := Nat.lt_succ_self _
    cases t with
    | word name =>
      refine reference_follows h (hparts name us hus hlt) (hitems us hus hlt) fun full vs hvs => ?_
      have hshort := hvs.length_le
      rw [List.length_cons] at hshort
      exact hargs full vs (((List.suffix_cons _ _).trans hvs).trans hus) (by omega)
    | number => exact single_follows h (by rw [Parser.primary])
    | string => exact single_follows h (by rw [Parser.primary])
    | ellipsis =>
      rw [Parser.primary]
      exact ⟨List.suffix_rfl, rfl⟩
    | arrow =>
      rw [Parser.primary]
      exact ⟨List.suffix_rfl, rfl⟩
    | mark c =>
      rw [List.head?_cons, starting.eq_def]
      dsimp only
      by_cases hparen : c = '('
      · subst hparen
        rw [if_pos rfl]
        exact parens_follows h fun vs hvs =>
          hinner vs (hvs.trans hus) (Nat.lt_succ_of_le hvs.length_le)
      rw [if_neg hparen]
      by_cases hbracket : c = '['
      · subst hbracket
        rw [if_pos rfl]
        exact tuple_follows h (hmembers us hus hlt)
      rw [if_neg hbracket]
      by_cases hbrace : c = '{'
      · subst hbrace
        rw [if_pos rfl]
        exact object_follows h
      rw [if_neg hbrace]
      by_cases hstar : c = '*'
      · subst hstar
        rw [if_pos rfl]
        exact single_follows h (by rw [Parser.primary])
      rw [if_neg hstar]
      by_cases hmarker : c = '?' ∨ c = '!'
      · rw [if_pos hmarker]
        exact marked_follows hmarker h (hitems us hus hlt)
      · have hstay : Parser.primary (.mark c :: us) = .stay (.mark c :: us) := by
          rw [Parser.primary, if_neg hmarker]
          all_goals simp [hparen, hbracket, hbrace, hstar]
        rw [if_neg hmarker, hstay]
        exact ⟨List.suffix_rfl, rfl⟩

-- Each call and each round of a loop either takes up a token or goes down one of the four levels of the
-- grammar, so a depth of five for each token is enough, and a few more for the levels.
mutual

theorem union_follows (n : Nat) {ts : List Token} (h : ts <:+ tokens) (hn : 5 * ts.length + 3 ≤ n) :
    (union n).Follows tokens ts (Parser.union ts) := by
  cases n with
  | zero => omega
  | succ n =>
    have hdrop := Parser.dropBar_suffix ts
    have hlength := hdrop.length_le
    have hitem := item_follows n (hdrop.trans h) (by omega)
    obtain ⟨found, hbar⟩ := run_eat_bar h
    have hrun : (union (n + 1)).run tokens (place tokens ts) =
        (do let e ← item n; moreMembers n [e]).run tokens (place tokens (Parser.dropBar ts)) := by
      rw [union, run_bind_some hbar]
    rw [Parser.union]
    split
    · next rest fits heq =>
      rw [heq] at hitem
      exact (hitem.bind_fail _).of_run_eq hdrop hrun
    · next e rest shorter heq =>
      rw [heq] at hitem
      have hrest : rest <:+ Parser.dropBar ts := hitem.suffix
      have hmore := moreMembers_follows n [e] (hrest.trans (hdrop.trans h)) (by omega)
      exact ((hitem.bind_ok hmore).of_run_eq hdrop hrun).widen _
termination_by n

theorem moreMembers_follows (n : Nat) (before : List TypeExpr) {ts : List Token} (h : ts <:+ tokens)
    (hn : 5 * ts.length + 4 ≤ n) :
    (moreMembers n before).Follows tokens ts (Parser.moreMembers before ts) := by
  cases n with
  | zero => omega
  | succ n =>
    rw [Parser.moreMembers.eq_def]
    split
    · next us =>
      have hus : us <:+ .mark '|' :: us := List.suffix_cons _ _
      rw [List.length_cons] at hn
      have hitem := item_follows n (hus.trans h) (by omega)
      have hrun : (moreMembers (n + 1) before).run tokens (place tokens (.mark '|' :: us)) =
          (do let e ← item n; moreMembers n (e :: before)).run tokens (place tokens us) := by
        rw [moreMembers, run_bind_some (run_eat h), if_pos rfl]
      split
      · next rest fits heq =>
        rw [heq] at hitem
        exact (hitem.bind_fail _).of_run_eq hus hrun
      · next e rest shorter heq =>
        rw [heq] at hitem
        have hrest : rest <:+ us := hitem.suffix
        have hmore := moreMembers_follows n (e :: before) (hrest.trans (hus.trans h)) (by omega)
        exact ((hitem.bind_ok hmore).of_run_eq hus hrun).widen _
    · next us =>
      refine ⟨List.suffix_rfl, ?_⟩
      rw [moreMembers, run_bind_some (run_eat_of_ne h (by simp)), if_neg Bool.false_ne_true,
        run_bind_some (run_peek_head h), if_pos List.head?_cons]
      rfl
    · next hbar hand =>
      refine ⟨List.suffix_rfl, ?_⟩
      rw [moreMembers, run_bind_some (run_eat_of_ne h (head?_ne hbar)), if_neg Bool.false_ne_true,
        run_bind_some (run_peek_head h), if_neg (head?_ne hand)]
      rfl
termination_by n

theorem item_follows (n : Nat) {ts : List Token} (h : ts <:+ tokens) (hn : 5 * ts.length + 2 ≤ n) :
    (item n).Follows tokens ts (Parser.item ts) := by
  cases n with
  | zero => omega
  | succ n =>
    have hprimary := primary_follows n h (by omega)
    rw [Parser.item]
    split
    · next rest fits heq =>
      rw [heq] at hprimary
      rw [item]
      exact hprimary.bind_fail _
    · next e rest shorter heq =>
      rw [heq] at hprimary
      have hrest : rest <:+ ts := hprimary.suffix
      refine ⟨(Parser.brackets_suffix e rest).trans hrest, ?_⟩
      have hlength : rest.length < n := by omega
      rw [item, run_bind_some hprimary.run_eq]
      exact run_arrays (hrest.trans h) hlength
termination_by n

theorem listed_follows (n : Nat) (closing : Char) (build : List TypeExpr → TypeExpr)
    (before : List TypeExpr) {ts : List Token} (h : ts <:+ tokens) (hn : 5 * ts.length + 4 ≤ n) :
    (listed n closing build before).Follows tokens ts (Parser.listed closing build before ts) := by
  cases n with
  | zero => omega
  | succ n =>
    have hunion := union_follows n h (by omega)
    rw [Parser.listed]
    split
    · next rest fits heq =>
      rw [heq] at hunion
      rw [listed]
      exact hunion.bind_fail _
    · next e rest shorter heq =>
      rw [heq] at hunion
      have hrest : rest <:+ ts := hunion.suffix
      have hrun : (listed (n + 1) closing build before).run tokens (place tokens ts) =
          (delimited closing (listed n closing build (e :: before))
            (build (e :: before).reverse)).run tokens (place tokens rest) := by
        rw [listed]
        exact run_bind_some hunion.run_eq
      have hbehind (hcomma : rest.head? ≠ some (.mark ',')) :=
        delimited_follows (w := listed n closing build (e :: before)) (hrest.trans h) hcomma closing
          (build (e :: before).reverse)
      split
      · next c us fits =>
        have hus : us <:+ .mark c :: us := List.suffix_cons _ _
        by_cases hcomma : c = ','
        · subst hcomma
          rw [List.length_cons] at fits
          have hmore := listed_follows n closing build (e :: before) (hus.trans (hrest.trans h))
            (by omega)
          rw [if_pos rfl]
          exact (hmore.of_run_eq (hus.trans hrest)
            (hrun.trans (run_delimited (hrest.trans h) closing _))).widen _
        · have hclose := hbehind (by simpa using hcomma)
          rw [if_neg hcomma]
          rw [Parser.close] at hclose
          by_cases hclosing : c = closing
          · rw [if_pos hclosing] at hclose ⊢
            exact ⟨hclose.suffix.trans hrest, hrun.trans hclose.run_eq⟩
          · rw [if_neg hclosing] at hclose ⊢
            exact ⟨hclose.suffix.trans hrest, hrun.trans hclose.run_eq⟩
      · next us hmark =>
        have hnone (c : Char) (us : List Token) : rest ≠ .mark c :: us := by
          rintro rfl
          exact hmark c us _ rfl HEq.rfl
        have hclose := hbehind (head?_ne (hnone ','))
        rw [Parser.close] at hclose
        · exact ⟨hclose.suffix.trans hrest, hrun.trans hclose.run_eq⟩
        · exact hnone
termination_by n

theorem primary_follows (n : Nat) {ts : List Token} (h : ts <:+ tokens)
    (hn : 5 * ts.length + 1 ≤ n) : (primary n).Follows tokens ts (Parser.primary ts) := by
  cases n with
  | zero => omega
  | succ n =>
    have hstart := starting_follows (qualify n) (fun full => listed n '>' (.generic full) []) h
      (fun us hus hlt => union_follows n hus (by omega))
      (fun us hus hlt => item_follows n hus (by omega))
      (fun us hus hlt => listed_follows n ']' .tuple [] hus (by omega))
      (fun name us hus hlt => run_qualify hus (by omega))
      (fun full us hus hlt => listed_follows n '>' (.generic full) [] hus (by omega))
    refine hstart.of_run_eq List.suffix_rfl ?_
    rw [primary, run_bind_some (run_peek_head h)]
termination_by n

end

end Walk

end CustomFunctions.TypeExpr
