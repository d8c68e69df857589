import CustomFunctions.Proofs.Text.Basic
import CustomFunctions.TypeExpr.Parser
import Mathlib.Data.List.Forall2

/-!
# Scanning parts of a type

Words, names and marks are scanned into their tokens, whatever follows them.

## Main definitions

- `Token.isWord`, `isName` — what is scanned as a word, and what is read as a name
- `Token.ScansAs` — the tokens that a part of a text is scanned into
- `Token.scansAs_name`, `Token.scansAs_intercalate` — names, and parts with a mark between them
-/

namespace CustomFunctions

/-- The code point of a character in some ranges is one of those that the ranges hold. -/
theorem Text.toNat_mem_of_inRanges {ranges : List (Nat × Nat)} {c : Char}
    (h : inRanges ranges c = true) :
    c.toNat ∈ ranges.flatMap fun r => List.range' r.1 (r.2 + 1 - r.1) := by
  obtain ⟨r, hr, hfirst, hlast⟩ := inRanges_iff.mp h
  refine List.mem_flatMap.mpr ⟨r, hr, List.mem_range'_1.mpr ⟨hfirst, ?_⟩⟩
  omega

namespace TypeExpr

-- ════════════════════════════════════════════════════════════════════════
-- Words and names
-- ════════════════════════════════════════════════════════════════════════

/-- Is the text scanned as one word? -/
def Token.isWord : List Char → Bool
  | [] => false
  | c :: rest => startsWord c && rest.all inWord

/-- The words that begin no name. -/
def reservedWords : List String :=
  ["true", "false", "typeof", "keyof", "infer", "unique", "readonly"]

/-- The parts of a name, which stand between points. -/
def nameParts (name : String) : List (List Char) :=
  Text.splitOn '.' name.toList

/-- Is this a word that begins a name, or several words with points between them, the first of which
begins a name? -/
def isName (name : String) : Bool :=
  (nameParts name).all Token.isWord &&
    (nameParts name).head?.all fun first => String.ofList first ∉ reservedWords

/-- The tokens of a name. -/
def nameTokens (name : String) : List Token :=
  List.intercalate [.mark '.'] ((nameParts name).map fun part => [.word (String.ofList part)])

theorem intercalate_nameParts (name : String) :
    List.intercalate ['.'] (nameParts name) = name.toList := by
  rw [nameParts, Text.splitOn_eq, List.intercalate_splitOn]

namespace Token

variable {c : Char} {s s' rest : List Char} {t : Token} {tokens tokens' : List Token}

theorem inWord_of_startsWord (h : startsWord c = true) : inWord c = true := by
  simp only [startsWord, inWord, Text.isLetter, Text.isLetterOrNumber, Bool.or_eq_true] at h ⊢
  rcases h with (h | h) | h
  · refine .inl (.inl ?_)
    split at h
    · rw [if_pos ‹_›, Char.isAlphanum, h, Bool.true_or]
    · rw [if_neg ‹_›, h, Bool.true_or]
  · exact .inl (.inr h)
  · exact .inr h

theorem isWord_cons : isWord (c :: s) = true ↔ startsWord c = true ∧ ∀ d ∈ s, inWord d = true := by
  rw [isWord, Bool.and_eq_true, List.all_eq_true]

/-- No blank stands in a word. -/
theorem isBlank_of_inWord (h : inWord c = true) : Text.isBlank c = false := by
  by_contra hblank
  rw [Bool.not_eq_false] at hblank
  have hblanks : ∀ n ∈ Text.blankRanges.flatMap fun r => List.range' r.1 (r.2 + 1 - r.1),
      inWord (Char.ofNat n) = false := by decide +kernel
  have hc := hblanks _ (Text.toNat_mem_of_inRanges hblank)
  rw [Char.ofNat_toNat, h] at hc
  cases hc

-- ════════════════════════════════════════════════════════════════════════
-- Scanning a part of a text
-- ════════════════════════════════════════════════════════════════════════

theorem scan?_token (hblank : Text.isBlank c = false) (h : next? c s = some (t, rest)) :
    scan? (c :: s) = (scan? rest).map (t :: ·) := by
  rw [scan?, hblank, if_neg Bool.false_ne_true]
  split
  · next heq =>
    rw [h] at heq
    cases heq
    rfl
  · next heq =>
    rw [h] at heq
    cases heq

theorem scan?_blank (h : Text.isBlank c = true) (s : List Char) : scan? (c :: s) = scan? s := by
  rw [scan?, if_pos h]

/-- No word goes on here. -/
def EndsWord (rest : List Char) : Prop :=
  ∀ c ∈ rest.head?, inWord c = false

theorem endsWord_cons (h : inWord c = false) (s : List Char) : EndsWord (c :: s) := by
  rintro _ ⟨⟩
  exact h

/-- The part of a text is scanned into the tokens, whatever stands behind it, unless a word goes on
there. -/
def ScansAs (s : List Char) (tokens : List Token) : Prop :=
  ∀ rest, EndsWord rest → scan? (s ++ rest) = (scan? rest).map (tokens ++ ·)

theorem ScansAs.append (h : ScansAs s tokens) (h' : ScansAs s' tokens')
    (hends : ∀ rest, EndsWord rest → EndsWord (s' ++ rest)) :
    ScansAs (s ++ s') (tokens ++ tokens') := by
  intro rest hrest
  rw [List.append_assoc, h _ (hends rest hrest), h' rest hrest, Option.map_map]
  congr 1
  funext found
  exact (List.append_assoc ..).symm

theorem scansAs_nil : ScansAs [] [] := by
  intro rest _
  simp

/-- The whole text is scanned. -/
theorem ScansAs.scan?_eq (h : ScansAs s tokens) : scan? s = some tokens := by
  have hall := h [] nofun
  rwa [List.append_nil, scan?, Option.map_some, List.append_nil] at hall

theorem ScansAs.cons (hblank : Text.isBlank c = false) (hnext : ∀ rest, next? c rest = some (t, rest))
    (h : ScansAs s tokens) : ScansAs (c :: s) (t :: tokens) := by
  intro rest hrest
  rw [List.cons_append, scan?_token hblank (hnext _), h rest hrest, Option.map_map]
  rfl

theorem scansAs_word (h : isWord s = true) : ScansAs s [.word (String.ofList s)] := by
  intro rest hrest
  cases s with
  | nil => cases h
  | cons c s =>
    obtain ⟨hc, hs⟩ := isWord_cons.mp h
    obtain ⟨htake, hdrop⟩ := Text.takeWhile_dropWhile_append hs hrest
    rw [List.cons_append]
    refine scan?_token (isBlank_of_inWord (inWord_of_startsWord hc)) ?_
    unfold next?
    rw [if_pos hc, htake, hdrop]

/-! ### Parts with a separator between them -/

theorem forall₂_scansAs {α : Type} {f : α → List Char} {g : α → List Token} {xs : List α}
    (h : ∀ x ∈ xs, ScansAs (f x) (g x)) : List.Forall₂ ScansAs (xs.map f) (xs.map g) := by
  rwa [List.forall₂_map_left_iff, List.forall₂_map_right_iff, List.forall₂_same]

section Separator

variable {separator : List Char} {parts : List (List Char)} {lists : List (List Token)}

theorem endsWord_flatMap (hends : ∀ s, EndsWord (separator ++ s)) (parts : List (List Char))
    (hrest : EndsWord rest) : EndsWord (parts.flatMap (separator ++ ·) ++ rest) := by
  cases parts with
  | nil => exact hrest
  | cons part parts =>
    rw [List.flatMap_cons, List.append_assoc, List.append_assoc]
    exact hends _

/-- Parts behind a separator that is scanned into one token, whichever of the parts follows it. -/
theorem scansAs_flatMap (hends : ∀ s, EndsWord (separator ++ s))
    (hseparator : ∀ part ∈ parts, ∀ s,
      scan? (separator ++ (part ++ s)) = (scan? (part ++ s)).map (t :: ·))
    (h : List.Forall₂ ScansAs parts lists) :
    ScansAs (parts.flatMap (separator ++ ·)) (lists.flatMap ([t] ++ ·)) := by
  induction h with
  | nil => exact scansAs_nil
  | @cons part tokens parts lists hpart _ ih =>
    rw [List.forall_mem_cons] at hseparator
    have hfirst : ScansAs (separator ++ part) ([t] ++ tokens) := by
      intro rest hrest
      rw [List.append_assoc, hseparator.1, hpart rest hrest, Option.map_map]
      rfl
    rw [List.flatMap_cons, List.flatMap_cons]
    exact hfirst.append (ih hseparator.2) fun rest => endsWord_flatMap hends parts

theorem scansAs_intercalate (hends : ∀ s, EndsWord (separator ++ s))
    (hseparator : ∀ part ∈ parts, ∀ s,
      scan? (separator ++ (part ++ s)) = (scan? (part ++ s)).map (t :: ·))
    (h : List.Forall₂ ScansAs parts lists) :
    ScansAs (List.intercalate separator parts) (List.intercalate [t] lists) := by
  cases h with
  | nil => exact scansAs_nil
  | @cons part tokens parts lists hpart hparts =>
    rw [Text.intercalate_cons, Text.intercalate_cons]
    rw [List.forall_mem_cons] at hseparator
    exact hpart.append (scansAs_flatMap hends hseparator.2 hparts)
      fun rest => endsWord_flatMap hends parts

end Separator

/-- A point before a word is a token of its own, since a word does not make an ellipsis of it. -/
theorem scan?_point (h : isWord s = true) (rest : List Char) :
    scan? ('.' :: (s ++ rest)) = (scan? (s ++ rest)).map (.mark '.' :: ·) := by
  cases s with
  | nil => cases h
  | cons c s =>
    have hpoint : c ≠ '.' := by
      rintro rfl
      exact absurd (isWord_cons.mp h).1 (by decide +kernel)
    refine scan?_token (by decide) ?_
    rw [next?]
    · simp [startsWord, Text.isLetter]
    · intro _ _ heq
      exact hpoint (List.cons.inj heq).1
    · rintro _ ⟨⟩

/-- A name is scanned into its words and the points between them. -/
theorem scansAs_name {name : String} (h : isName name = true) :
    ScansAs name.toList (nameTokens name) := by
  rw [isName, Bool.and_eq_true, List.all_eq_true] at h
  rw [← intercalate_nameParts, nameTokens]
  refine scansAs_intercalate (fun s => endsWord_cons (by decide +kernel) s)
    (fun part hpart s => scan?_point (h.1 part hpart) s) ?_
  rw [List.forall₂_map_right_iff, List.forall₂_same]
  exact fun part hpart => scansAs_word (h.1 part hpart)

/-! ### Marks -/

/-- The character is a token of its own, whatever follows it. -/
structure IsMark (c : Char) : Prop where
  blank : Text.isBlank c = false
  word : inWord c = false
  next : ∀ rest, next? c rest = some (.mark c, rest)

theorem isMark_of_mem : ∀ c ∈ ['(', ')', '[', ']', '{', '}', '<', '>', ',', '|'], IsMark c := by
  simp only [List.forall_mem_cons, List.not_mem_nil, false_implies, implies_true, and_true]
  refine ⟨?_, ?_, ?_, ?_, ?_, ?_, ?_, ?_, ?_, ?_⟩ <;>
    exact ⟨by decide +kernel, by decide +kernel, fun _ => rfl⟩

theorem IsMark.endsWord (h : IsMark c) (s : List Char) : EndsWord (c :: s) :=
  endsWord_cons h.word s

theorem ScansAs.behindMark (hc : IsMark c) (h : ScansAs s tokens) :
    ScansAs (c :: s) (.mark c :: tokens) :=
  h.cons hc.blank hc.next

theorem IsMark.scansAs (h : IsMark c) : ScansAs [c] [.mark c] :=
  .behindMark h scansAs_nil

/-- Two parts with a mark between them. -/
theorem ScansAs.aroundMark (h : ScansAs s tokens) (hc : IsMark c) (h' : ScansAs s' tokens') :
    ScansAs (s ++ c :: s') (tokens ++ .mark c :: tokens') :=
  h.append (.behindMark hc h') fun _ _ => hc.endsWord _

theorem ScansAs.beforeMark (h : ScansAs s tokens) (hc : IsMark c) :
    ScansAs (s ++ [c]) (tokens ++ [.mark c]) :=
  h.aroundMark hc scansAs_nil

theorem scan?_mark (h : IsMark c) (s : List Char) : scan? (c :: s) = (scan? s).map (.mark c :: ·) :=
  scan?_token h.blank (h.next s)

theorem ScansAs.behindEllipsis (h : ScansAs s tokens) :
    ScansAs ('.' :: '.' :: '.' :: s) (.ellipsis :: tokens) := by
  intro rest hrest
  have hnext : next? '.' ('.' :: '.' :: (s ++ rest)) = some (.ellipsis, s ++ rest) := rfl
  rw [List.cons_append, List.cons_append, List.cons_append, scan?_token (by decide +kernel) hnext,
    h rest hrest, Option.map_map]
  rfl

/-- Parts with commas between them. -/
theorem scansAs_commas {parts : List (List Char)} {lists : List (List Token)}
    (h : List.Forall₂ ScansAs parts lists) :
    ScansAs (List.intercalate [',', ' '] parts) (List.intercalate [.mark ','] lists) := by
  have hcomma : IsMark ',' := isMark_of_mem _ (by decide)
  refine scansAs_intercalate (fun s => hcomma.endsWord _) (fun part _ s => ?_) h
  rw [List.cons_append, scan?_mark hcomma, List.singleton_append, scan?_blank (by decide)]

/-- Parts with bars between them. -/
theorem scansAs_bars {parts : List (List Char)} {lists : List (List Token)}
    (h : List.Forall₂ ScansAs parts lists) :
    ScansAs (List.intercalate [' ', '|', ' '] parts) (List.intercalate [.mark '|'] lists) := by
  refine scansAs_intercalate (fun s => endsWord_cons (by decide +kernel) _) (fun part _ s => ?_) h
  rw [List.cons_append, scan?_blank (by decide), List.cons_append,
    scan?_mark (isMark_of_mem _ (by decide)), List.singleton_append, scan?_blank (by decide)]

/-- A part in parentheses. -/
theorem ScansAs.enclosed (h : ScansAs s tokens) :
    ScansAs ('(' :: (s ++ [')'])) (.mark '(' :: (tokens ++ [.mark ')'])) := by
  exact .behindMark (isMark_of_mem _ (by decide)) (h.beforeMark (isMark_of_mem _ (by decide)))

end Token

end TypeExpr

end CustomFunctions
