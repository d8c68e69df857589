import CustomFunctions.Proofs.Document.Unit
import CustomFunctions.Proofs.Signature.Invocations

/-!
# Invocations of accepted functions

The flags that the document shows for a function agree with the invocation that the host passes to
it. No visible parameter of an accepted function mentions an invocation, but its result does if the
type expression that decides the result names one: no check refuses it there.

## Main definitions

- `SourceUnit.Declares` — a function comes from a declaration of the file and the tags of its comment
- `Generation.ofUnit_options_agree` — flags, result and parameters agree
- `SourceUnit.accepted_mentionsInvocation_iff` — where accepted functions mention invocations
-/

namespace CustomFunctions

namespace SourceUnit

/-- The function is what a declaration of the file and the tags of its comment describe. -/
structure Declares (unit : SourceUnit) (decl : FunctionDecl) (tags : TagSet) (f : Signature) :
    Prop where
  mem : decl ∈ unit.functions
  tagged : decl.doc.map TagSet.ofComment = some tags
  made : ∃ (c : Candidate) (marker : Tag), c.signature = f ∧
    c.IsMadeFrom unit.registry decl tags marker

variable {unit : SourceUnit} {f : Signature}

theorem exists_declares (h : f ∈ unit.accepted) : ∃ decl tags, unit.Declares decl tags f := by
  obtain ⟨c, hc, hf⟩ := mem_candidates_of_accepted h
  obtain ⟨decl, hdecl, hcandidate⟩ := List.mem_filterMap.mp hc
  obtain ⟨doc, marker, hdoc, _, hmade⟩ := Candidate.ofDecl?_isMadeFrom hcandidate
  exact ⟨decl, .ofComment doc, hdecl, congrArg (Option.map _) hdoc, c, marker, hf, hmade⟩

/-- An accepted function mentions no invocation in its visible parameters, and one in its result
exactly if the type expression that decides the result names one. -/
theorem accepted_mentionsInvocation_iff (h : f ∈ unit.accepted) :
    (∀ p ∈ f.visible, p.type.mentionsInvocation = false) ∧
      ∃ decl tags, unit.Declares decl tags f ∧
        (f.result.mentionsInvocation = true ↔
          ∃ e, Candidate.resultExpr? decl tags = some e ∧
            (e.invocation? .result).isSome = true) := by
  obtain ⟨decl, tags, hdeclares⟩ := exists_declares h
  obtain ⟨c, marker, rfl, hmade⟩ := hdeclares.made
  refine ⟨fun p hp => ?_, decl, tags, hdeclares, ?_⟩
  · obtain ⟨hmem, hvisible⟩ := List.mem_filter.mp hp
    rw [hmade.parameters] at hmem
    exact Candidate.parameters_mentionsInvocation hmem hvisible
  · rw [hmade.result, hmade.parameters]
    exact Candidate.result_mentionsInvocation_iff

/-- A file with a function that streams numbers, although its comment and its code say otherwise. -/
def clockFile : SourceUnit where
  path := "clock.ts"
  language := .typeScript
  functions := [
    { name := "tick"
      doc := some ⟨["@customfunction", "@requiresStreamAddress", "@returns {string} ticks"], 1⟩
      parameters := [
        { name := "step", type? := some (.named "number"), line := 6 },
        { name := "ticks"
          type? := some (.generic "CustomFunctions.StreamingInvocation" [.named "number"])
          line := 6 }]
      returnType? := some (.named "void")
      isAsync := false
      returnHints := [.string]
      line := 6 }]
  enums := []

/-- The function that streams numbers shows its step and hides the invocation. -/
theorem accepted_mentionsInvocation_iff_tick :
    ∃ f ∈ clockFile.accepted, f.visible ≠ [] ∧
      (∀ p ∈ f.visible, p.type.mentionsInvocation = false) ∧
        ∃ decl tags, clockFile.Declares decl tags f ∧
          (f.result.mentionsInvocation = true ↔
            ∃ e, Candidate.resultExpr? decl tags = some e ∧
              (e.invocation? .result).isSome = true) := by
  obtain ⟨f, hf, hvisible⟩ : ∃ f ∈ clockFile.accepted, f.visible ≠ [] := by
    decide +kernel
  exact ⟨f, hf, hvisible, accepted_mentionsInvocation_iff hf⟩

/-- A file with a function that returns the invocation of the host. -/
def leakFile : SourceUnit where
  path := "functions.ts"
  language := .typeScript
  functions := [
    { name := "leak"
      doc := some ⟨["@customfunction"], 1⟩
      parameters := []
      returnType? := some (.named "CustomFunctions.Invocation")
      isAsync := false
      returnHints := []
      line := 1 }]
  enums := []

/-- A function that returns an invocation is accepted. -/
theorem not_forall_result_free :
    ¬ ∀ unit : SourceUnit, ∀ f ∈ unit.accepted, f.result.mentionsInvocation = false := by
  intro h
  obtain ⟨f, hf, hresult⟩ :
      ∃ f ∈ leakFile.accepted, f.result.mentionsInvocation = true := by
    decide +kernel
  rw [h leakFile f hf] at hresult
  exact nomatch hresult

end SourceUnit

namespace Generation

variable (flags : DocumentFlags) (unit : SourceUnit)

/-- The document shows each accepted function with flags that agree with its parameters and its
result. -/
theorem ofUnit_options_agree {f : Signature} (h : f ∈ unit.accepted) :
    FunctionEntry.ofSignature f ∈ (ofUnit flags unit).document.functions ∧ f.OptionsAgree := by
  refine ⟨List.mem_map_of_mem h, ?_⟩
  obtain ⟨decl, tags, hdeclares⟩ := SourceUnit.exists_declares h
  obtain ⟨c, marker, rfl, hmade⟩ := hdeclares.made
  exact hmade.optionsAgree (SourceUnit.accepted_keepsRules h)

/-- The function that streams numbers has the flags and the result of a stream. -/
theorem ofUnit_options_agree_tick :
    ∃ f ∈ SourceUnit.clockFile.accepted, f.options.stream = true ∧ f.result = .number ∧
      FunctionEntry.ofSignature f ∈ (ofUnit {} SourceUnit.clockFile).document.functions ∧
        f.OptionsAgree := by
  obtain ⟨f, hf, hstream, hresult⟩ : ∃ f ∈ SourceUnit.clockFile.accepted,
      f.options.stream = true ∧ f.result = .number := by
    decide +kernel
  exact ⟨f, hf, hstream, hresult, ofUnit_options_agree {} SourceUnit.clockFile hf⟩

end Generation

end CustomFunctions
