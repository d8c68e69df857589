import CustomFunctions.Proofs.Script.Rule
import CustomFunctions.Script.Declarations

/-!
# String literals

The characters of a string literal are written as they are or by escapes of one letter or mark, in any
mixture. The literal is read up to its closing quotation mark, and its value, as the name of a member
of an enum or as an initial value, is the text that is meant unless an escape with one of the letters
`b`, `f` and `v` is among the pieces: those letters stand for themselves. A literal in which the character
with the number zero stands as it is is not read at all.

## Main definitions

- `Piece` — how one character of a literal is written
- `Piece.meaning`, `Piece.reading` — the character that is meant, and the one in the value
- `Piece.stop` — the piece at which reading stops
- `string_literal_value_iff` — when the value of a literal is the text that is meant
-/

namespace CustomFunctions.Script

-- ════════════════════════════════════════════════════════════════════════
-- Literals and their pieces
-- ════════════════════════════════════════════════════════════════════════

/-- How a character of a string literal is written. -/
inductive Piece where
  /-- The character itself. -/
  | plain (c : Char)
  /-- A backslash with a letter or mark behind it. -/
  | escape (letter : Char)
deriving DecidableEq

namespace Piece

def written : Piece → List Char
  | plain c => [c]
  | escape letter => ['\\', letter]

/-- The character that is meant. -/
def meaning : Piece → Char
  | plain c => c
  | escape 'n' => '\n'
  | escape 't' => '\t'
  | escape 'r' => '\r'
  | escape 'b' => '\x08'
  | escape 'f' => '\x0c'
  | escape 'v' => '\x0b'
  | escape letter => letter

/-- The character that stands in the value. -/
def reading : Piece → Char
  | plain c => c
  | escape 'n' => '\n'
  | escape 't' => '\t'
  | escape 'r' => '\r'
  | escape letter => letter

/-- The piece at which reading stops. -/
def stop : Piece :=
  plain '\x00'

/-- The letters and marks of escapes. -/
def escapes : List Char :=
  ['n', 't', 'r', 'b', 'f', 'v', '\\', '\'', '"']

/-- May the piece stand between the given quotation marks? -/
def FitsIn (quote : Char) : Piece → Prop
  | plain c => c ≠ quote ∧ c ≠ '\\' ∧ c ≠ '\n' ∧ c ≠ '\r'
  | escape letter => letter ∈ escapes

instance (quote : Char) : (p : Piece) → Decidable (p.FitsIn quote)
  | plain c => inferInstanceAs (Decidable (c ≠ quote ∧ c ≠ '\\' ∧ c ≠ '\n' ∧ c ≠ '\r'))
  | escape letter => inferInstanceAs (Decidable (letter ∈ escapes))

/-- The meaning is missed by three letters only. -/
theorem reading_eq_meaning_iff {quote : Char} {p : Piece} (h : p.FitsIn quote) :
    p.reading = p.meaning ↔ ∀ letter ∈ ['b', 'f', 'v'], p ≠ escape letter := by
  cases p with
  | plain c => simp [reading, meaning]
  | escape letter =>
    simp only [FitsIn, escapes, List.mem_cons, List.not_mem_nil, or_false] at h
    obtain rfl | rfl | rfl | rfl | rfl | rfl | rfl | rfl | rfl := h <;> simp [reading, meaning]

end Piece

/-- The text of a literal. -/
def quoted (quote : Char) (pieces : List Piece) : List Char :=
  quote :: (pieces.flatMap Piece.written ++ [quote])

variable {quote : Char} {p : Piece} {pieces : List Piece} {rest : List Char}

/-- The meaning of a literal is missed if one of its pieces is read otherwise than it is meant. -/
theorem readings_eq_meanings_iff (h : ∀ p ∈ pieces, p.FitsIn quote) :
    pieces.map Piece.reading = pieces.map Piece.meaning
      ↔ ∀ letter ∈ ['b', 'f', 'v'], .escape letter ∉ pieces := by
  rw [List.map_inj_left]
  constructor
  · intro hall letter hletter hmem
    exact (Piece.reading_eq_meaning_iff (h _ hmem)).mp (hall _ hmem) letter hletter rfl
  · intro hnone p hp
    refine (Piece.reading_eq_meaning_iff (h p hp)).mpr ?_
    rintro letter hletter rfl
    exact hnone letter hletter hp

-- ════════════════════════════════════════════════════════════════════════
-- The value of a literal
-- ════════════════════════════════════════════════════════════════════════

theorem unescape_written (h : p.FitsIn quote) (s : List Char) :
    unescape (p.written ++ s) = p.reading :: unescape s := by
  cases p with
  | plain c =>
    obtain ⟨-, hc, -⟩ := h
    change unescape (c :: s) = c :: unescape s
    rw [unescape] <;> simp_all
  | escape letter =>
    simp only [Piece.FitsIn, Piece.escapes, List.mem_cons, List.not_mem_nil, or_false] at h
    obtain rfl | rfl | rfl | rfl | rfl | rfl | rfl | rfl | rfl := h <;> rfl

theorem unescape_pieces (h : ∀ p ∈ pieces, p.FitsIn quote) :
    unescape (pieces.flatMap Piece.written) = pieces.map Piece.reading := by
  induction pieces with
  | nil => rfl
  | cons p pieces ih =>
    obtain ⟨hp, hpieces⟩ := List.forall_mem_cons.mp h
    rw [List.flatMap_cons, unescape_written hp, ih hpieces, List.map_cons]

theorem stringValue_quoted (h : ∀ p ∈ pieces, p.FitsIn quote) :
    stringValue (quoted quote pieces) = String.ofList (pieces.map Piece.reading) := by
  have hlength : ¬ (quoted quote pieces).length < 2 := by simp [quoted]
  rw [stringValue, unquoted, if_neg hlength, quoted, List.tail_cons, List.dropLast_concat,
    unescape_pieces h]

-- ════════════════════════════════════════════════════════════════════════
-- Where a literal ends
-- ════════════════════════════════════════════════════════════════════════

/-- The marks between which a literal stands. -/
def IsQuote (c : Char) : Prop :=
  c = '"' ∨ c = '\''

namespace Lexeme

theorem stringTail_written (h : p.FitsIn quote) (hstop : p ≠ .stop) (s : List Char) :
    stringTail quote (p.written ++ s) = (stringTail quote s).map (· + p.written.length) := by
  cases p with
  | plain c =>
    obtain ⟨hquote, hslash, hfeed, hreturn⟩ := h
    have hc : isStop c = false := decide_eq_false fun hc => hstop (congrArg Piece.plain hc)
    change stringTail quote (c :: s) = _
    rw [stringTail, if_neg hquote, if_neg (by simp [hslash, hfeed, hreturn, hc])]
    · rfl
    · rintro d s' ⟨⟩
      contradiction
  | escape letter =>
    have hescape : isEscape (letter :: s) = true := by
      simp only [Piece.FitsIn, Piece.escapes, List.mem_cons, List.not_mem_nil, or_false] at h
      obtain rfl | rfl | rfl | rfl | rfl | rfl | rfl | rfl | rfl := h <;> rfl
    change stringTail quote ('\\' :: letter :: s) = _
    rw [stringTail, if_pos hescape]
    rfl

/-- The tail of a literal ends with the first quotation mark that is no part of a piece. -/
theorem stringTail_pieces (hquote : IsQuote quote) (h : ∀ p ∈ pieces, p.FitsIn quote)
    (hstop : .stop ∉ pieces) :
    stringTail quote (pieces.flatMap Piece.written ++ quote :: rest)
      = some ((pieces.flatMap Piece.written).length + 1) := by
  induction pieces with
  | nil => obtain rfl | rfl := hquote <;> rfl
  | cons p pieces ih =>
    obtain ⟨hp, hpieces⟩ := List.forall_mem_cons.mp h
    rw [List.mem_cons, not_or] at hstop
    obtain ⟨hne, hrest⟩ := hstop
    rw [List.flatMap_cons, List.append_assoc, stringTail_written hp (Ne.symm hne), ih hpieces hrest,
      Option.map_some, List.length_append]
    congr 1
    omega

/-- The tail of a literal has no end if reading stops at one of its pieces. -/
theorem stringTail_stop (h : ∀ p ∈ pieces, p.FitsIn quote) (hstop : .stop ∈ pieces) :
    stringTail quote (pieces.flatMap Piece.written ++ rest) = none := by
  induction pieces with
  | nil => cases hstop
  | cons p pieces ih =>
    obtain ⟨hp, hpieces⟩ := List.forall_mem_cons.mp h
    rw [List.flatMap_cons, List.append_assoc]
    by_cases hne : p = .stop
    · obtain rfl := hne
      change stringTail quote ('\x00' :: _) = none
      rw [stringTail, if_neg hp.1, if_pos (by simp [isStop])]
      rintro d s' ⟨⟩
    · rw [stringTail_written hp hne, ih hpieces ((List.mem_cons.mp hstop).resolve_left (Ne.symm hne))]
      rfl

theorem quoted_append : quoted quote pieces ++ rest
    = quote :: (pieces.flatMap Piece.written ++ quote :: rest) := by
  simp [quoted]

theorem string_quoted (hquote : IsQuote quote) (h : ∀ p ∈ pieces, p.FitsIn quote)
    (hstop : .stop ∉ pieces) :
    string (quoted quote pieces ++ rest) = (quoted quote pieces).length := by
  rw [quoted_append, string, if_pos (show quote = '"' ∨ quote = '\'' from hquote),
    stringTail_pieces hquote h hstop]
  simp [quoted]

theorem string_quoted_stop (hquote : IsQuote quote) (h : ∀ p ∈ pieces, p.FitsIn quote)
    (hstop : .stop ∈ pieces) : string (quoted quote pieces ++ rest) = 0 := by
  rw [quoted_append, string, if_pos (show quote = '"' ∨ quote = '\'' from hquote),
    stringTail_stop h hstop]
  rfl

/-- A literal begins like no number and like no word. -/
theorem number_quoted (hquote : IsQuote quote) : number (quoted quote pieces ++ rest) = 0 := by
  obtain rfl | rfl := hquote <;> rfl

theorem word_quoted (hquote : IsQuote quote) : word (quoted quote pieces ++ rest) = 0 := by
  obtain rfl | rfl := hquote <;> rfl

theorem privateName_quoted (hquote : IsQuote quote) :
    privateName (quoted quote pieces ++ rest) = 0 := by
  obtain rfl | rfl := hquote <;> rfl

theorem pattern_quoted (hquote : IsQuote quote) : pattern (quoted quote pieces ++ rest) = 0 := by
  obtain rfl | rfl := hquote <;> rfl

theorem mark_quoted (hquote : IsQuote quote) : mark (quoted quote pieces ++ rest) = [] := by
  have hmarks : ∀ m ∈ marks, m.head?.any (fun c => c ≠ '"' && c ≠ '\'') = true := by decide +kernel
  have hnone : marks.find? (·.isPrefixOf (quoted quote pieces ++ rest)) = none := by
    rw [List.find?_eq_none]
    intro m hm
    have hhead := hmarks m hm
    cases m with
    | nil => cases hhead
    | cons c m =>
      obtain rfl | rfl := hquote <;> simp_all [quoted]
  obtain rfl | rfl := hquote <;> exact congrArg (·.getD []) hnone

end Lexeme

-- ════════════════════════════════════════════════════════════════════════
-- Literals in a script
-- ════════════════════════════════════════════════════════════════════════

section

variable {st : State}

theorem State.word_of_quoted (hst : st.rest = quoted quote pieces ++ rest) (hquote : IsQuote quote) :
    st.word = [] := by
  rw [State.word, hst, Lexeme.word_quoted hquote, List.take_zero]

/-- A literal is read as a whole, whatever stands behind it. -/
theorem run_string (hst : st.rest = quoted quote pieces ++ rest) (hquote : IsQuote quote)
    (h : ∀ p ∈ pieces, p.FitsIn quote) (hstop : .stop ∉ pieces) :
    (Rule.lexeme Lexeme.string).run st
      = (some (quoted quote pieces), st.advance (quoted quote pieces).length) := by
  have hscan : Lexeme.string st.rest = (pieces.flatMap Piece.written).length + 1 + 1 := by
    rw [hst, Lexeme.string_quoted hquote h hstop]
    simp [quoted]
  have hlength : (quoted quote pieces).length = (pieces.flatMap Piece.written).length + 1 + 1 := by
    simp [quoted]
  rw [Rule.run_lexeme hscan, ← hlength, hst, List.take_left]

/-- As an expression, a literal stands for its text. -/
theorem run_literal (g : Grammar) (hst : st.rest = quoted quote pieces ++ rest)
    (hquote : IsQuote quote) (h : ∀ p ∈ pieces, p.FitsIn quote) (hstop : .stop ∉ pieces) :
    (g.literal.run st).1 = some (.string (quoted quote pieces)) := by
  have hnumber : (do return Tree.number (← Rule.lexeme Lexeme.number) : Rule Tree).run st
      = (none, st.refuse) :=
    Rule.run_bind_none (Rule.run_lexeme_none (by rw [hst, Lexeme.number_quoted hquote]))
  have hstring : (do return Tree.string (← Rule.lexeme Lexeme.string) : Rule Tree).run
      (st.keepRefusals st.refuse) = _ := Rule.run_bind (run_string hst hquote h hstop)
  rw [Grammar.literal, Rule.run_oneOf_tail hnumber, Rule.run_oneOf_head hstring]

/-- As the name of a property, a literal is read as a whole. -/
theorem run_propertyName (g : Grammar) (hst : st.rest = quoted quote pieces ++ rest)
    (hquote : IsQuote quote) (h : ∀ p ∈ pieces, p.FitsIn quote) (hstop : .stop ∉ pieces) :
    ∃ other, g.propertyName.run st
      = (some [], (st.keepRefusals other).advance (quoted quote pieces).length) := by
  have hword : (do let _ ← Rule.anyWord; return [] : Rule (List Tree)).run st = (none, st.refuse) :=
    Rule.run_bind_none (Rule.run_lexeme_none (by rw [hst, Lexeme.word_quoted hquote]))
  have hstring : (do let _ ← Rule.lexeme Lexeme.string; return [] : Rule (List Tree)).run
      (st.keepRefusals st.refuse) = _ := Rule.run_bind (run_string hst hquote h hstop)
  refine ⟨st.refuse, ?_⟩
  rw [Grammar.propertyName, Rule.run_oneOf_tail hword, Rule.run_oneOf_head hstring]

/-- A member of an enum that is named by a literal has the value of the literal as its name. -/
theorem run_enumMemberName (g : Grammar) (hst : st.rest = quoted quote pieces ++ rest)
    (hquote : IsQuote quote) (h : ∀ p ∈ pieces, p.FitsIn quote) (hstop : .stop ∉ pieces) :
    (g.enumMemberName.run st).1 = some (stringValue (quoted quote pieces), true) := by
  obtain ⟨other, hname⟩ := run_propertyName g hst hquote h hstop
  have hspan := Rule.run_spanned hname
  have hend : ((st.keepRefusals other).advance (quoted quote pieces).length).end_ - st.position
      = (quoted quote pieces).length := by
    simp [State.advance, State.pass, State.skip, State.keepRefusals, hst]
  rw [hend, hst, List.take_left] at hspan
  have hstart : Lexeme.string st.rest ≠ 0 := by
    rw [hst, Lexeme.string_quoted hquote h hstop]
    simp [quoted]
  change ((Rule.spanned g.propertyName >>= _).run st).1 = _
  rw [Rule.run_bind hspan]
  change ((if st.word ≠ [] then _ else if Lexeme.string st.rest ≠ 0 then _ else _ :
    Rule (String × Bool)).run _).1 = _
  rw [if_neg (fun hne => hne (State.word_of_quoted hst hquote)), if_pos hstart]
  rfl

/-- As an expression, a literal at which reading stops stands for nothing. -/
theorem literal_refuses_stop (g : Grammar) (hquote : IsQuote quote)
    (h : ∀ p ∈ pieces, p.FitsIn quote) (hstop : .stop ∈ pieces) :
    g.literal.Refuses (quoted quote pieces ++ rest) := by
  have hword : ∀ w : String, w.toList ≠ [] → (Rule.word w).Refuses (quoted quote pieces ++ rest) := by
    intro w hw
    refine .word ?_
    rw [Lexeme.word_quoted hquote]
    exact hw.symm
  have hbare : "`".toList.isPrefixOf (quoted quote pieces ++ rest) = false := by
    obtain rfl | rfl := hquote <;> rfl
  refine .oneOf ?_
  simp only [List.forall_mem_cons, List.not_mem_nil, false_implies, implies_true, and_true]
  exact ⟨.bind (.lexeme (Lexeme.number_quoted hquote)) _,
    .bind (.lexeme (Lexeme.string_quoted_stop hquote h hstop)) _,
    .bind (.spanned (.bind (.bare hbare) _)) _, .bind (.lexeme (Lexeme.pattern_quoted hquote)) _,
    .bind (hword "true" (by decide)) _, .bind (hword "false" (by decide)) _⟩

/-- Such a literal names no member of an enum. -/
theorem enumMemberName_refuses_stop (g : Grammar) (hquote : IsQuote quote)
    (h : ∀ p ∈ pieces, p.FitsIn quote) (hstop : .stop ∈ pieces) :
    g.enumMemberName.Refuses (quoted quote pieces ++ rest) := by
  have hmark : (Rule.mark "[").Refuses (quoted quote pieces ++ rest) := by
    refine .mark ?_ (by decide)
    rw [Lexeme.mark_quoted hquote]
    decide
  have hname : g.propertyName.Refuses (quoted quote pieces ++ rest) := by
    refine .oneOf ?_
    simp only [List.forall_mem_cons, List.not_mem_nil, false_implies, implies_true, and_true]
    exact ⟨.bind (.lexeme (Lexeme.word_quoted hquote)) _,
      .bind (.lexeme (Lexeme.string_quoted_stop hquote h hstop)) _,
      .bind (.lexeme (Lexeme.number_quoted hquote)) _, .bind hmark _,
      .bind (.lexeme (Lexeme.privateName_quoted hquote)) _⟩
  intro st hst
  rw [Grammar.enumMemberName]
  exact hname.spanned.bind _ st hst

/-- Whatever stands behind it, a literal names a member of an enum by the text of its pieces and
delivers this text as a value. The text is the one that is meant iff no piece is an escape with one
of the letters `b`, `f` and `v`. The literal does neither if reading stops at one of its pieces. -/
theorem string_literal_value_iff (g : Grammar) (hst : st.rest = quoted quote pieces ++ rest)
    (hquote : IsQuote quote) (h : ∀ p ∈ pieces, p.FitsIn quote) :
    (.stop ∉ pieces → ∃ text,
      (g.enumMemberName.run st).1 = some (text, true)
        ∧ (g.literal.run st).1.bind Tree.constant? = some (.string text)
        ∧ text = String.ofList (pieces.map Piece.reading)
        ∧ (text = String.ofList (pieces.map Piece.meaning)
          ↔ ∀ letter ∈ ['b', 'f', 'v'], .escape letter ∉ pieces))
    ∧ (.stop ∈ pieces → (g.enumMemberName.run st).1 = none ∧ (g.literal.run st).1 = none) := by
  constructor
  · intro hstop
    have hvalue := stringValue_quoted h
    refine ⟨stringValue (quoted quote pieces), run_enumMemberName g hst hquote h hstop, ?_, hvalue, ?_⟩
    · rw [run_literal g hst hquote h hstop]
      rfl
    · rw [hvalue, String.ofList_inj, readings_eq_meanings_iff h]
  · intro hstop
    exact ⟨enumMemberName_refuses_stop g hquote h hstop st hst,
      literal_refuses_stop g hquote h hstop st hst⟩

/-- A name in which an umlaut, a tabulator and two quotation marks are written. -/
theorem string_literal_value_iff_marks :
    let pieces := [.plain 'ü', .escape 't', .escape '\'', .plain '"']
    let g : Grammar := ⟨.typeScript, phrase .typeScript 8⟩
    IsQuote '\'' ∧ (∀ p ∈ pieces, Piece.FitsIn '\'' p)
      ∧ (g.enumMemberName.run (.start (quoted '\'' pieces))).1 = some ("ü\t'\"", true)
      ∧ (g.literal.run (.start (quoted '\'' pieces))).1.bind Tree.constant?
        = some (.string "ü\t'\"") := by
  intro pieces g
  have hquote : IsQuote '\'' := .inr rfl
  have hpieces : ∀ p ∈ pieces, Piece.FitsIn '\'' p := by decide
  have hstart : (State.start (quoted '\'' pieces)).rest = quoted '\'' pieces ++ [] := by
    decide +kernel
  obtain ⟨text, hname, hliteral, htext, -⟩ :=
    (string_literal_value_iff g hstart hquote hpieces).1 (by decide)
  have hvalue : text = "ü\t'\"" := htext.trans (by decide)
  rw [hvalue] at hname hliteral
  exact ⟨hquote, hpieces, hname, hliteral⟩

/-- A backspace that is written as an escape is read as a letter. -/
theorem not_forall_string_literal_value :
    ¬ ∀ (g : Grammar) (st : State) (pieces : List Piece), (∀ p ∈ pieces, p.FitsIn '"') →
      st.rest = quoted '"' pieces →
        (g.enumMemberName.run st).1 = some (String.ofList (pieces.map Piece.meaning), true)
          ∧ (g.literal.run st).1.bind Tree.constant?
            = some (.string (String.ofList (pieces.map Piece.meaning))) := by
  intro hall
  have hmeant := (hall ⟨.typeScript, phrase .typeScript 8⟩ (.start "\"a\\bc\"".toList)
    [.plain 'a', .escape 'b', .plain 'c'] (by decide) (by decide +kernel)).2
  revert hmeant
  decide +kernel

end

end CustomFunctions.Script
