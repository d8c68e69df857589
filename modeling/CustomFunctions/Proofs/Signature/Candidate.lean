import CustomFunctions.Signature.Candidate

/-!
# What a candidate is made of

A declaration makes a candidate exactly if its comment has the tag of custom functions. The parts of
the candidate come from the declaration and the tags of its comment, and all that is reported on the
way is about the function that is declared.

## Main definitions

- `Candidate.IsMadeFrom` — the parts of a candidate in terms of the declaration and its tags
- `Diagnostic.IsAbout` — a diagnostic about a function whose file is not yet told
-/

namespace CustomFunctions

/-- Does the comment of the declaration have the tag of custom functions? -/
def FunctionDecl.isTagged (decl : FunctionDecl) : Bool :=
  decl.doc.any fun doc => (TagSet.ofComment doc).has .customFunction

/-- The diagnostic is about the function with the given name, in a file that is not yet told. -/
structure Diagnostic.IsAbout (d : Diagnostic) (name : String) : Prop where
  subject : d.subject = .function
  name : d.subjectName = name
  file : d.file = none

namespace Candidate

/-- The candidate is made from a declaration and the tags of its comment, of which `marker` is the
first one of custom functions. -/
structure IsMadeFrom (registry : EnumRegistry) (decl : FunctionDecl) (tags : TagSet) (marker : Tag)
    (c : Candidate) : Prop where
  codeName : c.signature.codeName = decl.name
  parameters : c.signature.parameters = Candidate.parameters registry decl tags
  result : c.signature.result = Candidate.result registry decl tags c.signature.parameters
  options : c.signature.options = Candidate.options tags c.signature.parameters
  declaredReturn : c.signature.declaredReturn = decl.returnType?
  diagnostics : c.diagnostics =
    surplusWords decl marker (Text.words marker.value.toList) ++ paramWarnings decl tags

variable {registry : EnumRegistry} {decl : FunctionDecl} {c : Candidate}

theorem ofDecl?_isMadeFrom (h : ofDecl? registry decl = some c) :
    ∃ doc marker, decl.doc = some doc ∧
      (TagSet.ofComment doc).first? .customFunction = some marker ∧
        c.IsMadeFrom registry decl (TagSet.ofComment doc) marker := by
  simp only [ofDecl?, Option.bind_eq_bind, Option.bind_eq_some_iff, Option.pure_def,
    Option.some.injEq] at h
  obtain ⟨doc, hdoc, marker, hmarker, rfl⟩ := h
  exact ⟨doc, marker, hdoc, hmarker, rfl, rfl, rfl, rfl, rfl, rfl⟩

theorem ofDecl?_isSome (registry : EnumRegistry) (decl : FunctionDecl) :
    (ofDecl? registry decl).isSome = decl.isTagged := by
  unfold ofDecl? FunctionDecl.isTagged
  cases decl.doc with
  | none => rfl
  | some doc =>
    show (((TagSet.ofComment doc).first? .customFunction).bind _).isSome = _
    cases h : (TagSet.ofComment doc).first? .customFunction <;> simp [TagSet.has, h]

theorem parameter_name (registry : EnumRegistry) (decl : ParameterDecl) (tag : Option ParamTag) :
    (parameter registry decl tag).name = decl.name := by
  unfold parameter
  dsimp only
  split <;> rfl

/-- The parameters of a candidate have the names that the declaration gives them. -/
theorem ofDecl?_parameter_name (h : ofDecl? registry decl = some c) {p : Parameter}
    (hp : p ∈ c.signature.parameters) : ∃ q ∈ decl.parameters, q.name = p.name := by
  obtain ⟨doc, marker, _, _, hmade⟩ := ofDecl?_isMadeFrom h
  rw [hmade.parameters] at hp
  obtain ⟨q, hq, rfl⟩ := List.mem_map.mp hp
  exact ⟨q, hq, (parameter_name registry q _).symm⟩

theorem readParamTag_isAbout {tag : Tag} {d : Diagnostic} (h : readParamTag decl tag = .error d) :
    d.IsAbout decl.name := by
  unfold readParamTag at h
  split at h
  · cases h
    exact ⟨rfl, rfl, rfl⟩
  · split at h
    · exact nomatch h
    · cases h
      exact ⟨rfl, rfl, rfl⟩

/-- All that is found while a candidate is made is about the function that is declared. -/
theorem ofDecl?_isAbout (h : ofDecl? registry decl = some c) :
    c.signature.codeName = decl.name ∧ ∀ d ∈ c.diagnostics, d.IsAbout decl.name := by
  obtain ⟨doc, marker, _, _, hmade⟩ := ofDecl?_isMadeFrom h
  rw [hmade.diagnostics]
  refine ⟨hmade.codeName, List.forall_mem_append.mpr ⟨fun d hd => ?_, fun d hd => ?_⟩⟩
  · unfold surplusWords at hd
    split at hd
    · obtain rfl := List.mem_singleton.mp hd
      exact ⟨rfl, rfl, rfl⟩
    · exact absurd hd List.not_mem_nil
  · obtain ⟨tag, _, hd⟩ := List.mem_filterMap.mp hd
    split at hd
    · exact nomatch hd
    next found hfound =>
      obtain rfl := Option.some.inj hd
      exact readParamTag_isAbout hfound

end Candidate

end CustomFunctions
