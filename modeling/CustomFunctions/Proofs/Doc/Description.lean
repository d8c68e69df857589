import CustomFunctions.Proofs.Doc.ParamValue

/-!
# Descriptions of parameters

A hyphen that stands alone in front of a description sets it off from the name and is left out with the
blanks behind it. Any hyphen in front is left out in the same way, so the description is kept unless it
begins with a hyphen that belongs to a word or to a number. Of such a description the hyphen is lost.

## Main definitions

- `TypeBlock.withoutSeparator` — a text without the hyphen that sets it off
- `TypeBlock.beginsWithSign` — does a text begin with a hyphen that belongs to it?
- `ParamTag.read?_description_iff` — when the description of a parameter is kept
-/

namespace CustomFunctions

open Text

/-- A text that keeps its end still does if its first character is taken off. -/
theorem Text.trimEnd_of_cons {c : Char} {s : List Char} (h : trimEnd (c :: s) = c :: s) :
    trimEnd s = s := by
  rw [trimEnd_eq_self_iff] at h ⊢
  intro last hlast
  refine h last ?_
  rw [List.getLast?_cons, hlast]
  rfl

namespace TypeBlock

variable {s rest : List Char}

/-- The text without the hyphen that sets it off: one that has nothing or a blank behind it. -/
def withoutSeparator : List Char → List Char
  | '-' :: rest => if rest.head?.all isBlank then trimStart rest else '-' :: rest
  | s => s

/-- Does the text begin with a hyphen that belongs to a word or to a number? -/
def beginsWithSign : List Char → Bool
  | '-' :: c :: _ => ! isBlank c
  | _ => false

example : withoutSeparator "- -1 is the last row".toList = "-1 is the last row".toList ∧
    beginsWithSign "- -1 is the last row".toList = false ∧
    beginsWithSign "-1 is the last row".toList = true := by decide +kernel

/-- A hyphen in front of a description is left out with the blanks behind it. -/
theorem description_of_hyphen (h : trim s = '-' :: rest) : description s = trimStart rest := by
  have hend : trimEnd rest = rest := by
    have hwhole : trimEnd (trim s) = trim s := by
      rw [trim, trimEnd_eq, trimEnd_eq, List.rdropWhile_idempotent]
    rw [h] at hwhole
    exact trimEnd_of_cons hwhole
  rw [← hend, trimStart_trimEnd, description, h]
  cases rest with
  | nil => rfl
  | cons c rest =>
    by_cases hc : c = ' '
    · subst hc
      have hspace : ∀ b ∈ [' '], isBlank b = true := List.forall_mem_singleton.mpr rfl
      exact (trim_blank_append hspace rest).symm
    · split
      · next heq => exact absurd (List.cons.inj (List.cons.inj heq).2).1 hc
      · next heq => rw [(List.cons.inj heq).2]
      · next heq => exact absurd rfl (heq _)

/-- A description without a hyphen in front is kept. -/
theorem description_of_no_hyphen (h : ∀ rest, trim s ≠ '-' :: rest) : description s = trim s := by
  unfold description
  split
  · next rest heq => exact absurd heq (h _)
  · next rest heq => exact absurd heq (h _)
  · exact trim_trim s

/-- A description is kept but for the hyphen that sets it off, unless it begins with another hyphen. -/
theorem description_eq_iff (s : List Char) :
    description s = withoutSeparator (trim s) ↔ beginsWithSign (trim s) = false := by
  by_cases hhyphen : ∃ rest, trim s = '-' :: rest
  · obtain ⟨rest, hrest⟩ := hhyphen
    rw [description_of_hyphen hrest, hrest]
    cases rest with
    | nil => simp [withoutSeparator, beginsWithSign]
    | cons c rest =>
      cases hc : isBlank c with
      | true => simp [withoutSeparator, beginsWithSign, hc]
      | false =>
        have hlost : c :: rest ≠ '-' :: c :: rest := (List.cons_ne_self _ _).symm
        simp [withoutSeparator, beginsWithSign, hc, trimStart_cons hc, hlost]
  · have hnone : ∀ rest, trim s ≠ '-' :: rest := fun rest h => hhyphen ⟨rest, h⟩
    rw [description_of_no_hyphen hnone]
    unfold withoutSeparator beginsWithSign
    split
    · next rest heq => exact absurd heq (hnone _)
    · split
      · next heq => exact absurd heq (hnone _)
      · simp

/-- Of another hyphen the description loses the hyphen alone. -/
theorem description_of_sign (h : beginsWithSign (trim s) = true) :
    description s = (trim s).tail := by
  unfold beginsWithSign at h
  split at h
  · next c rest hs =>
    rw [description_of_hyphen hs, hs, trimStart_cons (by simpa using h)]
    rfl
  · cases h

end TypeBlock

namespace ParamTag

open TypeBlock

/-- The description of a parameter is what stands behind its name, without the blanks around it and
without a hyphen that sets it off, exactly if it does not begin with a hyphen that belongs to a word or
to a number. Such a hyphen is lost. -/
theorem read?_description_iff (d : ParamDraft) :
    ∃ told, read? d.text = some told ∧
      (told.description = String.ofList (withoutSeparator (trim d.rest.toList)) ↔
        beginsWithSign (trim d.rest.toList) = false) ∧
      (beginsWithSign (trim d.rest.toList) = true →
        told.description = String.ofList (trim d.rest.toList).tail) := by
  refine ⟨d.told, d.read?_text, ?_, fun hsign => ?_⟩
  · rw [← description_eq_iff]
    exact String.ofList_inj
  · rw [← description_of_sign hsign]
    rfl

/-- A description that begins with a negative number. -/
def offsetDraft : ParamDraft where
  type? := some "number"
  name := "offset"
  rest := " -1 is the last row"

/-- The sign of a number in front of a description is lost. -/
theorem not_forall_read?_description :
    ¬ ∀ d : ParamDraft, '}' ∉ d.name.toList → ∀ told, read? d.text = some told →
      told.description = String.ofList (withoutSeparator (trim d.rest.toList)) := by
  intro h
  have hread : read? offsetDraft.text =
      some ⟨some "number", "offset", false, none, "1 is the last row"⟩ := by decide +kernel
  have hfails := h offsetDraft (by decide +kernel) _ hread
  revert hfails
  decide +kernel

end ParamTag

end CustomFunctions
