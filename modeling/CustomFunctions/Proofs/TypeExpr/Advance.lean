import CustomFunctions.Proofs.TypeExpr.Follow
import CustomFunctions.Proofs.TypeExpr.Round

/-!
# Reading a type advances

Reading a type ends at every depth that is large enough for the tokens that are left, at a position of
the list which is not before the start, and behind the start if a type has been read. The rounds of the
scanner advance through the text in the same way. So a text is read to its end without a fault.

## Main definitions

- `Walk.Advances` — where the walks from a position end
- `parseChecked` — the type that a text stands for, read by positions and with checks

## Main results

- `Walk.reading_advances` — the levels of the grammar and the rounds of the scanner advance
- `Walk.run_top` — what the walk along all the tokens stands for
-/

namespace CustomFunctions.TypeExpr

open Checked

/-- A type is read from at least one token. -/
theorem Outcome.rest_length_lt {n : Nat} {o : Outcome n} (h : o.type?.isSome = true) :
    o.rest.length < n := by
  cases o with
  | ok e rest shorter => exact shorter
  | fail => cases h

namespace Walk

variable {tokens ts rest : List Token}

-- ════════════════════════════════════════════════════════════════════════
-- Advancing
-- ════════════════════════════════════════════════════════════════════════

/-- With enough depth granted, the walk from the position ends as the parser does on the tokens that
begin there, at a position of the list that does not lie before the start, and lies behind it if a type
has been read. -/
def Advances (walk : Nat → Walk TypeExpr) (parser : (ts : List Token) → Outcome ts.length)
    (tokens : List Token) (start : Nat) : Prop :=
  ∃ stop, (∀ n, 5 * (tokens.length - start) + 4 ≤ n →
      (walk n).run tokens start = .ok ((parser (tokens.drop start)).type?, stop)) ∧
    (parser (tokens.drop start)).rest = tokens.drop stop ∧
    start ≤ stop ∧ stop ≤ tokens.length ∧
    ((parser (tokens.drop start)).type?.isSome = true → start < stop)

theorem advances_of_follows {walk : Nat → Walk TypeExpr}
    {parser : (ts : List Token) → Outcome ts.length} {start : Nat} (hstart : start ≤ tokens.length)
    (hfollows : ∀ n, 5 * (tokens.drop start).length + 4 ≤ n →
      (walk n).Follows tokens (tokens.drop start) (parser (tokens.drop start))) :
    Advances walk parser tokens start := by
  have hdrop := List.drop_suffix start tokens
  have hrest := ((hfollows _ (Nat.le_refl _)).suffix).trans hdrop
  have hlength := hrest.length_le
  have hsize : (tokens.drop start).length = tokens.length - start := List.length_drop
  have hle := (parser (tokens.drop start)).rest_length
  refine ⟨place tokens (parser (tokens.drop start)).rest, fun n hn => ?_, (drop_place hrest).symm, ?_,
    place_le _ _, fun hread => ?_⟩
  · have hrun := (hfollows n (by omega)).run_eq
    rwa [place_drop hstart] at hrun
  · rw [place]
    omega
  · have hlt := Outcome.rest_length_lt hread
    rw [place]
    omega

/-- Reading a type advances: from every position in a list of tokens, each level of the grammar comes to
an end at a position of the list, not before the start, and behind the start if it has read a type. So
does the scanner in each of its rounds, of which there are at most as many as characters. -/
theorem reading_advances :
    (∀ tokens : List Token, ∀ start ≤ tokens.length, Advances union Parser.union tokens start ∧
      Advances item Parser.item tokens start ∧ Advances primary Parser.primary tokens start) ∧
    ∀ text : List Char,
      (∀ i c, text[i]? = some c → ∃ found stop, Token.round text i c = .ok (found, stop) ∧
        i < stop ∧ (found.isSome = true → stop ≤ text.length)) ∧
      ∀ n, text.length < n → Token.scanFrom text n 0 = .ok (Token.scan? text) := by
  refine ⟨fun tokens start hstart => ?_, fun text => ⟨fun i c => Token.round_advances, fun n hn => ?_⟩⟩
  · have hdrop := List.drop_suffix start tokens
    refine ⟨?_, ?_, ?_⟩
    · exact advances_of_follows hstart fun n hn => union_follows n hdrop (by omega)
    · exact advances_of_follows hstart fun n hn => item_follows n hdrop (by omega)
    · exact advances_of_follows hstart fun n hn => primary_follows n hdrop (by omega)
  · have hscan := Token.scanFrom_eq List.suffix_rfl hn
    rwa [place_self] at hscan

/-- A function type whose result is not covered is a type, and ends where the attempt to read the result
stops. -/
theorem reading_advances_ignored_result :
    ∃ found, (union 24).run [.mark '(', .mark ')', .arrow, .mark ')'] 0 = .ok (found, 3) ∧
      found.isSome = true ∧ 0 < 3 ∧ 3 ≤ [Token.mark '(', .mark ')', .arrow, .mark ')'].length := by
  obtain ⟨stop, hrun, -, -, hle, hlt⟩ :=
    (reading_advances.1 [.mark '(', .mark ')', .arrow, .mark ')'] 0 (Nat.zero_le _)).1
  have hread := hrun 24 (by decide)
  have heval : ((union 24).run [.mark '(', .mark ')', .arrow, .mark ')'] 0).map
      (fun found => (found.1.isSome, found.2)) = .ok (true, 3) := by decide +kernel
  rw [hread] at heval
  obtain ⟨hfound, rfl⟩ := Prod.mk.inj (Except.ok.inj heval)
  exact ⟨_, hread, hfound, hlt hfound, hle⟩

-- ════════════════════════════════════════════════════════════════════════
-- Whole texts
-- ════════════════════════════════════════════════════════════════════════

/-- What is read stands for all the tokens if none are left. -/
theorem filter_place (h : rest <:+ tokens) (e : TypeExpr) :
    ((some e).filter fun _ => tokens.length ≤ place tokens rest) = if rest = [] then some e else none := by
  have hend : tokens.length ≤ place tokens rest ↔ rest = [] := by
    have hplace := place_add_length h
    rw [← List.length_eq_zero_iff]
    omega
  simp only [Option.filter_some, hend, decide_eq_true_eq]

theorem run_top_of_ellipsis {n : Nat} (h : .ellipsis :: ts <:+ tokens) (hn : 5 * ts.length + 3 ≤ n) :
    (top n).run tokens (place tokens (.ellipsis :: ts)) =
      .ok ((Parser.union ts).type?.map .variadic, place tokens (Parser.union ts).rest) := by
  have hts := (List.suffix_cons _ _).trans h
  have hunion := (union_follows n hts hn).run_eq
  rw [top, run_bind_some (run_peek_head h), if_pos List.head?_cons, run_bind_some (run_pass h)]
  cases hread : Parser.union ts with
  | ok e rest shorter =>
    rw [hread] at hunion
    exact run_bind_some hunion
  | fail rest fits =>
    rw [hread] at hunion
    exact run_bind_none hunion

theorem run_top_of_ne {n : Nat} (h : ts <:+ tokens) (hne : ts.head? ≠ some .ellipsis) :
    (top n).run tokens (place tokens ts) =
      (do
        let e ← union n
        if ← eat '=' then return .optional e else return e : Walk TypeExpr).run tokens
          (place tokens ts) := by
  rw [top, run_bind_some (run_peek_head h), if_neg hne]

/-- The walk along all the tokens ends behind the last one with a type, or there is none. -/
theorem run_top {n : Nat} (tokens : List Token) (hn : 5 * tokens.length + 3 ≤ n) :
    ∃ found stop, (top n).run tokens 0 = .ok (found, stop) ∧
      (found.filter fun _ => tokens.length ≤ stop) = Parser.whole? tokens := by
  have hall := List.suffix_refl tokens
  rw [← place_self tokens]
  by_cases hhead : tokens.head? = some .ellipsis
  · obtain ⟨inner, rfl⟩ := List.head?_eq_some_iff.mp hhead
    have hinner := List.suffix_cons Token.ellipsis inner
    rw [List.length_cons] at hn
    have hsuffix := (union_follows n hinner (by omega)).suffix.trans hinner
    refine ⟨_, _, run_top_of_ellipsis hall (by omega), ?_⟩
    rw [Parser.whole?]
    cases hread : Parser.union inner with
    | fail rest fits => rfl
    | ok e rest shorter =>
      rw [hread] at hsuffix
      refine (filter_place hsuffix _).trans ?_
      cases rest <;> rfl
  · have hunion := union_follows n hall hn
    rw [run_top_of_ne hall hhead, Parser.whole?]
    · cases hread : Parser.union tokens with
      | fail rest fits =>
        rw [hread] at hunion
        exact ⟨none, _, run_bind_none hunion.run_eq, rfl⟩
      | ok e rest shorter =>
        rw [hread] at hunion
        have hrest : rest <:+ tokens := hunion.suffix
        rw [run_bind_some hunion.run_eq]
        by_cases hequals : rest.head? = some (.mark '=')
        · obtain ⟨behind, rfl⟩ := List.head?_eq_some_iff.mp hequals
          refine ⟨some (.optional e), _, run_bind_some (run_eat hrest), ?_⟩
          rw [filter_place ((List.suffix_cons _ _).trans hrest)]
          simp
        · have hne : rest ≠ [.mark '='] := by
            rintro rfl
            exact hequals rfl
          refine ⟨some e, _, run_bind_some (run_eat_of_ne hrest hequals), ?_⟩
          rw [filter_place hrest]
          simp [hne]
    · rintro inner rfl
      exact hhead rfl

end Walk

/-- The type that a text stands for, if all its tokens make up one. -/
def parseChecked (written : String) : Except Fault TypeExpr := do
  let trimmed := Text.trim written.toList
  let invalid := .invalid (String.ofList trimmed)
  match ← Token.scanFrom trimmed (trimmed.length + 1) 0 with
  | none => return invalid
  | some tokens =>
    match ← (Walk.top (5 * tokens.length + 4)).run tokens 0 with
    | (some e, stop) => return if tokens.length ≤ stop then e else invalid
    | (none, _) => return invalid

theorem parseChecked_eq (written : String) : parseChecked written = .ok (parse written) := by
  have hscan := Token.scanFrom_eq List.suffix_rfl (Nat.lt_succ_self (Text.trim written.toList).length)
  rw [place_self] at hscan
  unfold parseChecked parse
  dsimp only
  rw [hscan]
  cases htokens : Token.scan? (Text.trim written.toList) with
  | none => rfl
  | some tokens =>
    obtain ⟨found, stop, hrun, hwhole⟩ := Walk.run_top tokens (Nat.le_succ (5 * tokens.length + 3))
    show ((Walk.top _).run tokens 0 >>= _) = _
    rw [hrun]
    rw [Option.bind_some, ← hwhole]
    cases found with
    | none => rfl
    | some e =>
      show Except.ok (if tokens.length ≤ stop then e else _) = _
      rw [Option.filter_some]
      by_cases hend : tokens.length ≤ stop
      · rw [if_pos hend, if_pos (decide_eq_true hend)]
      · rw [if_neg hend, if_neg (by simpa using hend)]

end CustomFunctions.TypeExpr
