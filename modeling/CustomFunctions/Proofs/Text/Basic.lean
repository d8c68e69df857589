import CustomFunctions.Text.Blank
import CustomFunctions.Text.Casing
import CustomFunctions.Text.Lines
import Mathlib.Data.List.DropRight

/-!
# Characters, blanks and lines

The code points and the lower case of ASCII characters, how trimming acts on a text that is put
together, and how lines that are joined are found again.

## Main definitions

- `toNat_of_isAlphanum`, `lowerCase_of_ascii` — ASCII letters and digits
- `takeWhile_dropWhile_append` — the front of a text is found again
- `trimStart_append`, `trimEnd_append` — the blanks around a text of two parts
- `IsTrimmed` — a text without blanks around it
- `IsUnbroken`, `lines_joinLines` — lines are found again in the text that joins them
-/

namespace CustomFunctions.Text

variable {s t blanks : List Char}

-- ════════════════════════════════════════════════════════════════════════
-- Letters and digits
-- ════════════════════════════════════════════════════════════════════════

theorem isAlpha_iff (c : Char) :
    c.isAlpha = true ↔ ('A' ≤ c ∧ c ≤ 'Z') ∨ ('a' ≤ c ∧ c ≤ 'z') := by
  change (decide ('A' ≤ c ∧ c ≤ 'Z') || decide ('a' ≤ c) && decide (c ≤ 'z')) = true ↔ _
  rw [Bool.or_eq_true, Bool.and_eq_true, decide_eq_true_eq, decide_eq_true_eq, decide_eq_true_eq]

theorem toNat_of_isAlphanum {c : Char} (h : c.isAlphanum = true) :
    0x30 ≤ c.toNat ∧ c.toNat < 0x80 := by
  rw [Char.isAlphanum, Bool.or_eq_true, isAlpha_iff, Char.isDigit_iff_toNat] at h
  have bounds {first last : Nat} (hfirst : 0x30 ≤ first) (hlast : last < 0x80)
      (hc : first ≤ c.toNat ∧ c.toNat ≤ last) : 0x30 ≤ c.toNat ∧ c.toNat < 0x80 :=
    ⟨hfirst.trans hc.1, hc.2.trans_lt hlast⟩
  rcases h with (hupper | hlower) | hdigit
  · exact bounds (by decide) (by decide) hupper
  · exact bounds (by decide) (by decide) hlower
  · exact bounds (by decide) (by decide) hdigit

theorem lowerAfter_of_ascii (before : List Char) (h : ∀ c ∈ s, c.toNat < 0x80) :
    lowerAfter before s = s.map Char.toLower := by
  induction s generalizing before with
  | nil => rfl
  | cons c s ih =>
    obtain ⟨hc, hs⟩ := List.forall_mem_cons.mp h
    have hsigma : c ≠ 'Σ' := by
      rintro rfl
      exact absurd hc (by decide)
    rw [lowerAfter, if_neg hsigma, lowerChar, if_pos hc, ih _ hs]
    rfl

theorem lowerCase_of_ascii {name : String} (h : ∀ c ∈ name.toList, c.toNat < 0x80) :
    lowerCase name = name.toLower := by
  show _ = name.map Char.toLower
  rw [lowerCase, lower, lowerAfter_of_ascii [] h, ← String.toList_map, String.ofList_toList]

/-- The front of a text is what is taken while a test holds, if the test fails where the text goes on. -/
theorem takeWhile_dropWhile_append {p : Char → Bool} (hs : ∀ c ∈ s, p c = true)
    (ht : ∀ c ∈ t.head?, p c = false) :
    (s ++ t).takeWhile p = s ∧ (s ++ t).dropWhile p = t := by
  rw [List.takeWhile_append_of_pos hs, List.dropWhile_append_of_pos hs]
  cases t with
  | nil => simp
  | cons c t =>
    have hc : p c = false := ht c rfl
    simp [hc]

-- ════════════════════════════════════════════════════════════════════════
-- Trimming
-- ════════════════════════════════════════════════════════════════════════

theorem trimStart_cons {c : Char} (h : isBlank c = false) (s : List Char) :
    trimStart (c :: s) = c :: s :=
  List.dropWhile_cons_of_neg (by simp [h])

theorem trimStart_append (s t : List Char) :
    trimStart (s ++ t) = if trimStart s = [] then trimStart t else trimStart s ++ t := by
  rw [trimStart, List.dropWhile_append]
  simp only [List.isEmpty_iff]
  rfl

theorem trimStart_of_blank (h : ∀ c ∈ s, isBlank c = true) : trimStart s = [] :=
  List.dropWhile_eq_nil_iff.mpr h

/-- Trimming the start of a text does not depend on whether the start of its first part is trimmed. -/
theorem trimStart_trimStart_append (s t : List Char) :
    trimStart (trimStart s ++ t) = trimStart (s ++ t) := by
  rw [trimStart_append (trimStart s), trimStart_append s, trimStart, trimStart,
    List.dropWhile_idempotent]

/-- Blanks are trimmed from the end as they are dropped from the end of a list. -/
theorem trimEnd_eq (s : List Char) : trimEnd s = s.rdropWhile isBlank := by
  induction s with
  | nil => rfl
  | cons c s ih =>
    have hreverse : s.reverse.dropWhile isBlank = (trimEnd s).reverse := by
      rw [ih, List.rdropWhile, List.reverse_reverse]
    rw [List.rdropWhile, List.reverse_cons, List.dropWhile_append, hreverse, trimEnd]
    cases trimEnd s with
    | nil => by_cases hc : isBlank c = true <;> simp [hc]
    | cons => simp

theorem trimEnd_append (s t : List Char) :
    trimEnd (s ++ t) = if trimEnd t = [] then trimEnd s else s ++ trimEnd t := by
  simp only [trimEnd_eq, List.rdropWhile, List.reverse_append, List.dropWhile_append,
    List.isEmpty_iff, List.reverse_eq_nil_iff, apply_ite List.reverse, List.reverse_reverse]

theorem trimEnd_of_blank (h : ∀ c ∈ s, isBlank c = true) : trimEnd s = [] :=
  (trimEnd_eq s).trans (List.rdropWhile_eq_nil_iff.mpr h)

/-- A text whose last character is no blank keeps its end. -/
theorem trimEnd_concat {c : Char} (h : isBlank c = false) (s : List Char) :
    trimEnd (s ++ [c]) = s ++ [c] :=
  (trimEnd_eq _).trans (List.rdropWhile_concat_neg _ _ c (by simp [h]))

/-- A text keeps its end exactly if its last character is no blank. -/
theorem trimEnd_eq_self_iff : trimEnd s = s ↔ ∀ c ∈ s.getLast?, isBlank c = false := by
  rw [trimEnd_eq, List.rdropWhile_eq_self_iff]
  constructor
  · intro h c hc
    have hne : s ≠ [] := by
      rintro rfl
      exact nomatch hc
    rw [List.getLast?_eq_some_getLast hne] at hc
    exact Option.some.inj hc ▸ Bool.eq_false_iff.mpr (h hne)
  · exact fun h hne => Bool.eq_false_iff.mp (h _ (List.getLast?_eq_some_getLast hne))

theorem trimEnd_of_no_blank (h : ∀ c ∈ s, isBlank c = false) : trimEnd s = s :=
  trimEnd_eq_self_iff.mpr fun c hc => h c (List.mem_of_getLast? hc)

/-- A space before a text without blanks at its end stays unless the text is empty. -/
theorem trimEnd_space_cons (h : trimEnd s = s) :
    trimEnd (' ' :: s) = if s = [] then [] else ' ' :: s := by
  rw [trimEnd, h]
  cases s <;> rfl

theorem trim_blank_append (h : ∀ c ∈ blanks, isBlank c = true) (s : List Char) :
    trim (blanks ++ s) = trim s := by
  rw [trim, trimStart_append, if_pos (trimStart_of_blank h), trim]

theorem trim_append_blank (h : ∀ c ∈ blanks, isBlank c = true) (s : List Char) :
    trim (s ++ blanks) = trim s := by
  rw [trim, trim, trimStart_append]
  split
  · next hs => rw [hs, trimStart_of_blank h]
  · rw [trimEnd_append, if_pos (trimEnd_of_blank h)]

/-- A text is what is left of it by trimming, with blanks around it. -/
theorem exists_trim (s : List Char) :
    ∃ before after, (∀ c ∈ before, isBlank c = true) ∧ (∀ c ∈ after, isBlank c = true) ∧
      s = before ++ (trim s ++ after) := by
  refine ⟨s.takeWhile isBlank, (trimStart s).rtakeWhile isBlank, fun c hc => ?_,
    fun c hc => List.mem_rtakeWhile_imp hc, ?_⟩
  · exact (List.mem_takeWhile_imp hc)
  · rw [trim, trimEnd_eq, List.rdropWhile_append_rtakeWhile, trimStart,
      List.takeWhile_append_dropWhile]

theorem trim_trim (s : List Char) : trim (trim s) = trim s := by
  obtain ⟨before, after, hbefore, hafter, hs⟩ := exists_trim s
  calc trim (trim s) = trim (before ++ (trim s ++ after)) := by
        rw [trim_blank_append hbefore, trim_append_blank hafter]
    _ = trim s := by rw [← hs]

/-- The ends of a text may be trimmed in either order. -/
theorem trimStart_trimEnd (s : List Char) : trimStart (trimEnd s) = trim s := by
  rw [trim]
  induction s with
  | nil => rfl
  | cons c s ih =>
    by_cases hc : isBlank c = true
    · have hstart : trimStart (c :: s) = trimStart s := List.dropWhile_cons_of_pos hc
      rw [hstart, ← ih, trimEnd]
      cases trimEnd s with
      | nil => rw [if_pos hc]
      | cons => exact List.dropWhile_cons_of_pos hc
    · have hstay : ∀ t, trimStart (c :: t) = c :: t := trimStart_cons (Bool.eq_false_iff.mpr hc)
      rw [hstay, trimEnd]
      cases trimEnd s with
      | nil => rw [if_neg hc, hstay]
      | cons => exact hstay _

theorem trim_eq_nil_iff : trim s = [] ↔ ∀ c ∈ s, isBlank c = true := by
  constructor
  · intro h
    obtain ⟨before, after, hbefore, hafter, hs⟩ := exists_trim s
    rw [h, List.nil_append] at hs
    rw [hs]
    exact List.forall_mem_append.mpr ⟨hbefore, hafter⟩
  · intro h
    rw [trim, trimStart_of_blank h]
    rfl

/-- A joined list begins with its first part, and the separator stands before each other part. -/
theorem intercalate_cons {α : Type} (separator part : List α) (parts : List (List α)) :
    List.intercalate separator (part :: parts) = part ++ parts.flatMap (separator ++ ·) := by
  induction parts generalizing part with
  | nil => simp
  | cons next parts ih =>
    rw [List.intercalate_cons_cons, ih next, List.flatMap_cons, List.append_assoc,
      List.append_assoc]

/-- The text is not empty and has no blank at its start and at its end. -/
structure IsTrimmed (s : List Char) : Prop where
  ne_nil : s ≠ []
  start : trimStart s = s
  finish : trimEnd s = s

theorem IsTrimmed.trim_eq (h : IsTrimmed s) : trim s = s := by
  rw [trim, h.start, h.finish]

theorem isTrimmed_of_no_blank (hne : s ≠ []) (h : ∀ c ∈ s, isBlank c = false) : IsTrimmed s where
  ne_nil := hne
  start := List.dropWhile_eq_self_iff.mpr fun hlt => by
    rw [h _ (List.getElem_mem hlt)]
    exact Bool.false_ne_true
  finish := trimEnd_of_no_blank h

/-- What stands between two such texts does not matter. -/
theorem IsTrimmed.append (hs : IsTrimmed s) (between : List Char) (ht : IsTrimmed t) :
    IsTrimmed (s ++ (between ++ t)) where
  ne_nil := List.append_ne_nil_of_left_ne_nil hs.ne_nil _
  start := by rw [trimStart_append, hs.start, if_neg hs.ne_nil]
  finish := by rw [← List.append_assoc, trimEnd_append, ht.finish, if_neg ht.ne_nil]

theorem isTrimmed_intercalate (separator : List Char) {parts : List (List Char)} (hne : parts ≠ [])
    (h : ∀ part ∈ parts, IsTrimmed part) : IsTrimmed (List.intercalate separator parts) := by
  induction parts with
  | nil => exact absurd rfl hne
  | cons part parts ih =>
    rw [List.forall_mem_cons] at h
    cases parts with
    | nil =>
      rw [List.intercalate_singleton]
      exact h.1
    | cons _ _ =>
      rw [List.intercalate_cons_cons, List.append_assoc]
      exact h.1.append separator (ih (List.cons_ne_nil _ _) h.2)

-- ════════════════════════════════════════════════════════════════════════
-- Lines
-- ════════════════════════════════════════════════════════════════════════

theorem joinLines_cons (p : List Char) (ps : List (List Char)) :
    joinLines (p :: ps) = p ++ ps.flatMap ('\n' :: ·) :=
  intercalate_cons ..

theorem toList_joinLines (ls : List String) :
    ("\n".intercalate ls).toList = joinLines (ls.map String.toList) :=
  String.toList_intercalate

/-- Empty lines at the end are trimmed. -/
theorem trim_joinLines_append (p : List Char) (ps : List (List Char)) {empty : List (List Char)}
    (h : ∀ l ∈ empty, l = []) :
    trim (joinLines (p :: ps ++ empty)) = trim (joinLines (p :: ps)) := by
  have hblank : ∀ c ∈ empty.flatMap ('\n' :: ·), isBlank c = true := by
    intro c hc
    obtain ⟨l, hl, hc⟩ := List.mem_flatMap.mp hc
    rw [h l hl, List.mem_singleton] at hc
    exact hc ▸ (by decide)
  rw [List.cons_append, joinLines_cons, joinLines_cons, List.flatMap_append, ← List.append_assoc,
    trim_append_blank hblank]

theorem trim_joinLines_trimStart (p : List Char) (ps : List (List Char)) :
    trim (joinLines (trimStart p :: ps)) = trim (joinLines (p :: ps)) := by
  rw [joinLines_cons, joinLines_cons, trim, trim, trimStart_trimStart_append]

/-- Lines that are joined end in the last one. -/
theorem exists_joinLines_concat (ps : List (List Char)) (q : List Char) :
    ∃ s, joinLines (ps ++ [q]) = s ++ q := by
  cases ps with
  | nil => exact ⟨[], List.intercalate_singleton⟩
  | cons p ps =>
    refine ⟨joinLines (p :: ps) ++ ['\n'], ?_⟩
    simp [joinLines_cons]

/-- Nothing is trimmed of lines if the first and the last one are not empty and keep their ends. -/
theorem trim_joinLines {p : List Char} {ps : List (List Char)} (hstart : trimStart p = p)
    (hfirst : p ≠ []) (hlast : ∀ q ∈ (p :: ps).getLast?, trimEnd q = q ∧ q ≠ []) :
    trim (joinLines (p :: ps)) = joinLines (p :: ps) := by
  obtain ⟨init, q, hsplit⟩ : ∃ init q, p :: ps = init ++ [q] :=
    ⟨_, _, (List.dropLast_append_getLast (List.cons_ne_nil p ps)).symm⟩
  obtain ⟨hend, hq⟩ := hlast q (by simp [hsplit])
  obtain ⟨s, hjoined⟩ := exists_joinLines_concat init q
  have htrimmed : trimEnd (joinLines (p :: ps)) = joinLines (p :: ps) := by
    rw [hsplit, hjoined, trimEnd_append, hend, if_neg hq]
  rw [trim, joinLines_cons, trimStart_append, hstart, if_neg hfirst, ← joinLines_cons, htrimmed]

theorem splitOn_eq (sep : Char) (s : List Char) : splitOn sep s = s.splitOn sep := by
  induction s with
  | nil => rfl
  | cons c s ih =>
    rw [splitOn, List.splitOn_cons_eq_if_modifyHead, ← ih]
    cases h : splitOn sep s with
    | nil => exact absurd h (splitOn_ne_nil sep s)
    | cons => simp

/-- The text is told apart as a line: it holds no line feed and does not end in a carriage return. -/
structure IsUnbroken (l : List Char) : Prop where
  no_feed : '\n' ∉ l
  no_return : l.getLast? ≠ some '\r'

theorem isUnbroken_of_no_blank (h : ∀ c ∈ s, isBlank c = false) : IsUnbroken s where
  no_feed hmem := absurd (h '\n' hmem) (by decide)
  no_return hlast := absurd (h '\r' (List.mem_of_getLast? hlast)) (by decide)

/-- Behind other text on the same line, a line stays unbroken. -/
theorem IsUnbroken.append (hs : IsUnbroken s) (ht : IsUnbroken t) : IsUnbroken (s ++ t) := by
  refine ⟨List.not_mem_append hs.no_feed ht.no_feed, ?_⟩
  have hlast := ht.no_return
  rw [List.getLast?_append]
  cases h : t.getLast? with
  | none => exact hs.no_return
  | some c => rwa [h] at hlast

/-- Lines that are joined are found again, if the last one is not empty. -/
theorem lines_joinLines {ps : List (List Char)} {last : List Char} (hlast : last ≠ [])
    (hps : ∀ p ∈ ps, IsUnbroken p) (hfeed : '\n' ∉ last) :
    lines (joinLines (ps ++ [last])) = ps ++ [last] := by
  have hfeeds : ∀ p ∈ ps ++ [last], '\n' ∉ p := by
    rw [List.forall_mem_append, List.forall_mem_singleton]
    exact ⟨fun p hp => (hps p hp).no_feed, hfeed⟩
  have hpieces : splitOn '\n' (joinLines (ps ++ [last])) = ps ++ [last] :=
    (splitOn_eq _ _).trans (List.splitOn_intercalate '\n' hfeeds (by simp))
  have hkept : ps.map dropReturn = ps := by
    refine (List.map_congr_left fun p hp => ?_).trans (List.map_id ps)
    exact if_neg (hps p hp).no_return
  rw [lines, hpieces]
  simp [hkept, hlast]

end CustomFunctions.Text
