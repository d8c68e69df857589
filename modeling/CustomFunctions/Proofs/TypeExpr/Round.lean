import CustomFunctions.Proofs.Fault
import CustomFunctions.Proofs.TypeExpr.Scan

/-!
# Scanning in rounds

The tokens of a text by an index into its characters. A round takes up the blank or the token that begins
at the index and moves the index behind it; the text of a word is cut out by its indices. A round that
looks for the end of a string may move the index beyond the text, where a backslash comes last.

## Main definitions

- `Token.round` — one round of the loop
- `Token.scanFrom` — the rounds from an index on

- `Token.RoundsTo` — what a round comes to

## Main results

- `Token.round_eq` — a round comes to what the scanner reads at its place
- `Token.round_advances` — a round ends behind the place at which it begins
- `Token.scanFrom_eq` — the rounds from an end of the text on yield its tokens
-/

namespace CustomFunctions.TypeExpr.Token

open Checked

-- ════════════════════════════════════════════════════════════════════════
-- Rounds
-- ════════════════════════════════════════════════════════════════════════

/-- The first index from `i` on at which no character of the given kind stands. -/
def behindRun (p : Char → Bool) (chars : List Char) (i : Nat) : Nat :=
  i + ((chars.drop i).takeWhile p).length

/-- The index of the quotation mark that closes a string of which the rest begins at index `i`. -/
def closingQuote (quote : Char) (i : Nat) : List Char → Nat
  | [] => i
  | c :: rest =>
    if c = quote then i
    else if c = '\\' then
      match rest with
      | [] => i + 2
      | _ :: rest => closingQuote quote (i + 2) rest
    else closingQuote quote (i + 1) rest

/-- The token at an index at which the character `c` stands, or none for a blank, and the index behind it.
There is no result for a string that is never closed. -/
def round (chars : List Char) (i : Nat) (c : Char) : Except Fault (Option (Option Token) × Nat) :=
  if Text.isBlank c then .ok (some none, i + 1)
  else if startsWord c then do
    let stop := behindRun inWord chars i
    let name ← cut chars i stop
    return (some (some (.word (String.ofList name))), stop)
  else if c.isDigit || (c = '-' && chars[i + 1]?.any Char.isDigit) then
    .ok (some (some .number), behindRun inNumber chars (i + 1))
  else if c = '"' || c = '\'' || c = '`' then
    let stop := closingQuote c (i + 1) (chars.drop (i + 1))
    if chars.length ≤ stop then .ok (none, stop) else .ok (some (some .string), stop + 1)
  else if c = '.' ∧ chars[i + 1]? = some '.' ∧ chars[i + 2]? = some '.' then
    .ok (some (some .ellipsis), i + 3)
  else if c = '=' ∧ chars[i + 1]? = some '>' then .ok (some (some .arrow), i + 2)
  else .ok (some (some (.mark c)), i + 1)

/-- The tokens that begin at an index or behind it, in at most the given number of rounds. -/
def scanFrom (chars : List Char) : Nat → Nat → Except Fault (Option (List Token))
  | 0, _ => .error .depth
  | n + 1, i =>
    match chars[i]? with
    | none => .ok (some [])
    | some c => do
      match ← round chars i c with
      | (none, _) => return none
      | (some none, j) => scanFrom chars n j
      | (some (some t), j) => return (← scanFrom chars n j).map (t :: ·)

-- ════════════════════════════════════════════════════════════════════════
-- One round
-- ════════════════════════════════════════════════════════════════════════

variable {chars s rest behind : List Char} {quote c : Char} {t : Token}

theorem behindRun_eq (p : Char → Bool) (h : s <:+ chars) :
    behindRun p chars (place chars s) = place chars (s.dropWhile p) := by
  have hrun := congrArg List.length (List.takeWhile_append_dropWhile (p := p) (l := s))
  have hplace := place_add_length h
  have hbehind := place_add_length ((List.dropWhile_suffix p).trans h)
  rw [List.length_append] at hrun
  rw [behindRun, drop_place h]
  omega

theorem cut_run (p : Char → Bool) (h : s <:+ chars) :
    cut chars (place chars s) (behindRun p chars (place chars s)) = .ok (s.takeWhile p) := by
  obtain ⟨before, rfl⟩ := h
  have hplace : place (before ++ s) s = before.length := by simp [place]
  have hsplit : before ++ s = before ++ s.takeWhile p ++ s.dropWhile p := by
    rw [List.append_assoc, List.takeWhile_append_dropWhile]
  rw [hplace, behindRun, List.drop_left]
  conv => lhs; arg 1; rw [hsplit]
  exact cut_append _ _ _

theorem afterString?_suffix (h : afterString? quote s = some rest) : rest <:+ s := by
  fun_induction afterString? quote s with
  | case1 => cases h
  | case2 s =>
    cases h
    exact List.suffix_cons _ _
  | case3 => cases h
  | case4 _ c s ih => exact (ih h).trans (List.suffix_append ['\\', c] s)
  | case5 c s =>
    cases h
    exact List.suffix_cons _ _
  | case6 c s _ _ ih => exact (ih h).trans (List.suffix_cons c s)

theorem next?_suffix (h : next? c s = some (t, behind)) : behind <:+ s := by
  unfold next? at h
  split at h
  · cases h
    exact List.dropWhile_suffix _
  split at h
  · cases h
    exact List.dropWhile_suffix _
  split at h
  · obtain ⟨_, hstring, hpair⟩ := Option.map_eq_some_iff.mp h
    cases hpair
    exact afterString?_suffix hstring
  split at h
  · cases h
    exact List.suffix_append [_, _] _
  · cases h
    exact List.suffix_cons _ _
  · cases h
    exact List.suffix_rfl

theorem closingQuote_hidden (hquote : quote ≠ '\\') (i : Nat) (c : Char) (s : List Char) :
    closingQuote quote i ('\\' :: c :: s) = closingQuote quote (i + 2) s := by
  rw [closingQuote, if_neg hquote.symm, if_pos rfl]

theorem closingQuote_of_ne (hquote : c ≠ quote) (hbackslash : c ≠ '\\') (i : Nat) (s : List Char) :
    closingQuote quote i (c :: s) = closingQuote quote (i + 1) s := by
  rw [closingQuote.eq_def]
  dsimp only
  rw [if_neg hquote, if_neg hbackslash]

/-- Either the mark that closes a string stands before what is behind the string, or the end of the text
has been passed. -/
theorem closingQuote_eq (hquote : quote ≠ '\\') (h : s <:+ chars) :
    match afterString? quote s with
    | some rest => closingQuote quote (place chars s) s + 1 = place chars rest
    | none => chars.length ≤ closingQuote quote (place chars s) s := by
  fun_induction afterString? quote s with
  | case1 => exact Nat.le_of_eq (Nat.sub_zero _).symm
  | case2 s heq => exact absurd heq hquote
  | case3 =>
    have hplace := place_add_length h
    rw [closingQuote, if_neg hquote.symm, if_pos rfl]
    rw [List.length_singleton] at hplace
    dsimp only
    omega
  | case4 _ c s ih =>
    have hs := (List.suffix_cons _ _).trans h
    have hplace : place chars ('\\' :: c :: s) + 2 = place chars s := by
      rw [← place_cons hs, ← place_cons h]
    rw [closingQuote_hidden hquote, hplace]
    exact ih ((List.suffix_cons _ _).trans hs)
  | case5 s hbackslash =>
    rw [closingQuote.eq_def]
    dsimp only
    rw [if_pos rfl]
    exact place_cons h
  | case6 c s hbackslash hne ih =>
    rw [closingQuote_of_ne hne hbackslash, place_cons h]
    exact ih ((List.suffix_cons _ _).trans h)

theorem quote_ne_backslash (h : (c = '"' || c = '\'' || c = '`') = true) : c ≠ '\\' := by
  rintro rfl
  revert h
  decide

theorem getElem?_next (h : c :: s <:+ chars) : chars[place chars (c :: s) + 1]? = s.head? := by
  rw [getElem?_place h, List.head?_eq_getElem?]
  rfl

/-- The round at a character with a text behind it comes to what is found there, and ends where the text
begins that is left; it has no result if nothing is found. -/
def RoundsTo (chars : List Char) (c : Char) (s : List Char) : Option (Token × List Char) → Prop
  | some (t, behind) =>
    round chars (place chars (c :: s)) c = .ok (some (some t), place chars behind)
  | none => ∃ stop, chars.length ≤ stop ∧ round chars (place chars (c :: s)) c = .ok (none, stop)

section

variable (h : c :: s <:+ chars) (hblank : ¬ Text.isBlank c = true)
include h hblank

theorem round_word (hword : startsWord c = true) : RoundsTo chars c s (next? c s) := by
  have hc := inWord_of_startsWord hword
  have hname := cut_run inWord h
  have hstop := behindRun_eq inWord h
  rw [List.takeWhile_cons_of_pos hc] at hname
  rw [List.dropWhile_cons_of_pos hc] at hstop
  unfold next?
  rw [if_pos hword, RoundsTo, round, if_neg hblank, if_pos hword]
  dsimp only
  rw [hname, hstop]
  rfl

variable (hword : ¬ startsWord c = true)
include hword

theorem round_number (hnumber : (c.isDigit || (c = '-' && s.head?.any Char.isDigit)) = true) :
    RoundsTo chars c s (next? c s) := by
  have hs := (List.suffix_cons c s).trans h
  unfold next?
  rw [if_neg hword, if_pos hnumber, RoundsTo, round, if_neg hblank, if_neg hword, getElem?_next h,
    if_pos hnumber, place_cons h, behindRun_eq inNumber hs]

variable (hnumber : ¬ (c.isDigit || (c = '-' && s.head?.any Char.isDigit)) = true)
include hnumber

theorem round_string (hquote : (c = '"' || c = '\'' || c = '`') = true) :
    RoundsTo chars c s (next? c s) := by
  have hs := (List.suffix_cons c s).trans h
  have hstop := closingQuote_eq (quote_ne_backslash hquote) hs
  unfold next?
  rw [if_neg hword, if_neg hnumber, if_pos hquote]
  cases hstring : afterString? c s with
  | none =>
    rw [hstring] at hstop
    refine ⟨_, hstop, ?_⟩
    rw [round, if_neg hblank, if_neg hword, getElem?_next h, if_neg hnumber, if_pos hquote,
      place_cons h, drop_place hs]
    exact if_pos hstop
  | some rest =>
    rw [hstring] at hstop
    have hle := place_le chars rest
    have hlt : ¬ chars.length ≤ closingQuote c (place chars s) s := by
      dsimp only at hstop
      omega
    rw [Option.map_some, RoundsTo, round, if_neg hblank, if_neg hword, getElem?_next h,
      if_neg hnumber, if_pos hquote, place_cons h, drop_place hs]
    dsimp only
    rw [if_neg hlt, hstop]

theorem round_mark (hquote : ¬ (c = '"' || c = '\'' || c = '`') = true) :
    RoundsTo chars c s (next? c s) := by
  have hs := (List.suffix_cons c s).trans h
  unfold next?
  rw [if_neg hword, if_neg hnumber, if_neg hquote]
  split
  · next rest =>
    have hs' := (List.suffix_cons _ _).trans hs
    rw [RoundsTo, round, if_neg hblank, if_neg hword, getElem?_next h, if_neg hnumber, if_neg hquote,
      if_pos ⟨rfl, rfl, getElem?_place h 2⟩, ← place_cons hs', ← place_cons hs, ← place_cons h]
  · next rest =>
    rw [RoundsTo, round, if_neg hblank, if_neg hword, getElem?_next h, if_neg hnumber, if_neg hquote,
      if_neg (by rintro ⟨⟨⟩, -⟩), if_pos ⟨rfl, rfl⟩, ← place_cons hs, ← place_cons h]
  · next hdots harrow =>
    rw [RoundsTo, round, if_neg hblank, if_neg hword, getElem?_next h, if_neg hnumber, if_neg hquote,
      if_neg, if_neg, place_cons h]
    · rintro ⟨rfl, hhead⟩
      obtain ⟨rest, rfl⟩ := List.head?_eq_some_iff.mp hhead
      exact harrow rest rfl rfl
    · rintro ⟨rfl, hhead, hnext⟩
      obtain ⟨rest, rfl⟩ := List.head?_eq_some_iff.mp hhead
      rw [getElem?_place h] at hnext
      obtain ⟨rest, rfl⟩ := List.head?_eq_some_iff.mp ((List.head?_eq_getElem? ..).trans hnext)
      exact hdots rest rfl rfl

end

theorem round_eq (h : c :: s <:+ chars) (hblank : Text.isBlank c = false) :
    RoundsTo chars c s (next? c s) := by
  have hblank : ¬ Text.isBlank c = true := by simp [hblank]
  by_cases hword : startsWord c = true
  · exact round_word h hblank hword
  by_cases hnumber : (c.isDigit || (c = '-' && s.head?.any Char.isDigit)) = true
  · exact round_number h hblank hword hnumber
  by_cases hquote : (c = '"' || c = '\'' || c = '`') = true
  · exact round_string h hblank hword hnumber hquote
  · exact round_mark h hblank hword hnumber hquote

/-- A round ends behind the place at which it begins, and within the text unless a string is never
closed. -/
theorem round_advances {i : Nat} (h : chars[i]? = some c) :
    ∃ found stop, round chars i c = .ok (found, stop) ∧ i < stop ∧
      (found.isSome = true → stop ≤ chars.length) := by
  obtain ⟨hi, hc⟩ := List.getElem?_eq_some_iff.mp h
  have hdrop := List.drop_eq_getElem_cons hi
  rw [hc] at hdrop
  have hsuffix : c :: chars.drop (i + 1) <:+ chars := hdrop ▸ List.drop_suffix i chars
  have hplace : place chars (c :: chars.drop (i + 1)) = i := hdrop ▸ place_drop (Nat.le_of_lt hi)
  cases hblank : Text.isBlank c with
  | true =>
    refine ⟨some none, i + 1, ?_, Nat.lt_succ_self i, fun _ => hi⟩
    rw [round, if_pos hblank]
  | false =>
    have hround := round_eq hsuffix hblank
    cases hnext : next? c (chars.drop (i + 1)) with
    | some found =>
      obtain ⟨t, behind⟩ := found
      have hbehind := next?_suffix hnext
      rw [hnext, RoundsTo, hplace] at hround
      have hlt : i < place chars behind := by
        have := hbehind.length_le
        rw [List.length_drop] at this
        rw [place]
        omega
      exact ⟨_, _, hround, hlt, fun _ => place_le chars behind⟩
    | none =>
      rw [hnext, RoundsTo, hplace] at hround
      obtain ⟨stop, hstop, hround⟩ := hround
      refine ⟨none, stop, hround, Nat.lt_of_lt_of_le hi hstop, fun hfound => ?_⟩
      exact absurd hfound Bool.false_ne_true

/-- A backslash at the end of the text moves the index beyond the text. -/
example : round ['\'', '\\'] 0 '\'' = .ok (none, 3) := by decide +kernel

-- ════════════════════════════════════════════════════════════════════════
-- All rounds
-- ════════════════════════════════════════════════════════════════════════

theorem scan?_unclosed (hblank : Text.isBlank c = false) (h : next? c s = none) :
    scan? (c :: s) = none := by
  rw [scan?, hblank, if_neg Bool.false_ne_true]
  split
  · next heq =>
    rw [h] at heq
    cases heq
  · rfl

theorem scanFrom_cons (h : c :: s <:+ chars) (n : Nat) :
    scanFrom chars (n + 1) (place chars (c :: s)) = (do
      match ← round chars (place chars (c :: s)) c with
      | (none, _) => return none
      | (some none, j) => scanFrom chars n j
      | (some (some t), j) => return (← scanFrom chars n j).map (t :: ·)) := by
  have hhead : chars[place chars (c :: s)]? = some c := getElem?_place h 0
  rw [scanFrom, hhead]

/-- One round for each character that is left is enough, and one more to see the end. -/
theorem scanFrom_eq {n : Nat} (h : s <:+ chars) (hn : s.length < n) :
    scanFrom chars n (place chars s) = .ok (scan? s) := by
  induction n generalizing s with
  | zero => omega
  | succ n ih =>
    cases s with
    | nil =>
      have hend : chars[place chars []]? = none := getElem?_place h 0
      rw [scanFrom, hend, scan?]
    | cons c s =>
      have hs := (List.suffix_cons c s).trans h
      rw [List.length_cons] at hn
      rw [scanFrom_cons h]
      cases hblank : Text.isBlank c with
      | true =>
        rw [round, if_pos hblank, place_cons h, scan?_blank hblank]
        exact ih hs (by omega)
      | false =>
        have hround := round_eq h hblank
        cases hnext : next? c s with
        | none =>
          rw [hnext, RoundsTo] at hround
          obtain ⟨stop, -, hround⟩ := hround
          rw [hround, scan?_unclosed hblank hnext]
          rfl
        | some found =>
          obtain ⟨t, behind⟩ := found
          have hbehind := next?_suffix hnext
          have hlength := hbehind.length_le
          rw [hnext, RoundsTo] at hround
          rw [hround, scan?_token hblank hnext]
          show (scanFrom chars n (place chars behind) >>= _) = _
          rw [ih (hbehind.trans hs) (by omega)]
          rfl

end CustomFunctions.TypeExpr.Token
