import CustomFunctions.Proofs.Review.Rules
import CustomFunctions.Proofs.Signature.Candidate
import CustomFunctions.Proofs.ValueType.Invocations

/-!
# Invocations of candidates

The flags and the result of a candidate depend on the invocations among its parameters. If they keep
the rules, the last parameter alone decides whether the function streams and whether it can be
cancelled, and the stream decides the result. Otherwise the result is what its tag or its annotation
says, so an invocation that is named there becomes the result.

## Main definitions

- `Signature.EndsWith` — the last parameter is an invocation of a kind
- `Signature.OptionsAgree` — the flags and the result agree with the parameters
- `Candidate.resultExpr?` — the type expression that decides the result
-/

namespace CustomFunctions

namespace Signature

/-- The last parameter is an invocation of the given kind. -/
def EndsWith (f : Signature) (kind : InvocationKind) : Prop :=
  ∃ p, f.parameters.getLast? = some p ∧ p.type.invocationKind? = some kind

/-- The flags and the result of a function agree with its parameters. -/
structure OptionsAgree (f : Signature) : Prop where
  stream_iff : f.options.stream = true ↔
    f.EndsWith .streaming ∧ ∀ p ∈ f.parameters.dropLast, p.type.invocationKind? = none
  cancelable_iff : f.options.cancelable = true ↔ f.EndsWith .cancelable ∨ f.EndsWith .streaming
  cancelable_of_stream : f.options.stream = true → f.options.cancelable = true
  stream_of_addresses :
    f.options.requiresStreamAddress = true ∨ f.options.requiresStreamParameterAddresses = true →
      f.options.stream = true
  sync : f.options.supportSync = true → f.EndsWith .plain ∧
    f.options.stream = false ∧ f.options.cancelable = false ∧ f.options.volatile = false
  /-- A stream delivers the values of the result: of its type argument, or of any type. -/
  delivered : f.options.stream = true → ∃ p, f.parameters.getLast? = some p ∧
    (p.type = .invocationOf .streaming f.result ∨
      p.type = .invocation .streaming ∧ f.result = .any)

/-- Every parameter is marked as an invocation exactly if its type is one. -/
def MarksInvocations (f : Signature) : Prop :=
  ∀ p ∈ f.parameters, p.invocation? = p.type.invocationKind?

variable {f : Signature}

/-- If only the last parameter can be an invocation, the function takes what it ends with. -/
theorem takes_iff_endsWith (hmarks : f.MarksInvocations)
    (hlast : ∀ p ∈ f.parameters.dropLast, p.invocation? = none) (kind : InvocationKind) :
    f.Takes kind ↔ f.EndsWith kind := by
  constructor
  · rintro ⟨p, hp, hkind⟩
    have hne := List.ne_nil_of_mem hp
    refine ⟨f.parameters.getLast hne, List.getLast?_eq_some_getLast hne, ?_⟩
    rw [← List.dropLast_append_getLast hne, List.mem_append] at hp
    rcases hp with hp | hp
    · rw [hlast p hp] at hkind
      exact nomatch hkind
    · obtain rfl := List.mem_singleton.mp hp
      rw [← hmarks _ (List.getLast_mem hne), hkind]
  · rintro ⟨p, hp, hkind⟩
    have hmem := List.mem_of_getLast? hp
    exact ⟨p, hmem, (hmarks p hmem).trans hkind⟩

/-- A function ends with one kind of invocation at most. -/
theorem EndsWith.kind_eq {kind other : InvocationKind} (h : f.EndsWith kind)
    (hother : f.EndsWith other) : kind = other := by
  obtain ⟨p, hp, hkind⟩ := h
  obtain ⟨q, hq, hkind'⟩ := hother
  obtain rfl := Option.some.inj (hp.symm.trans hq)
  exact Option.some.inj (hkind.symm.trans hkind')

end Signature

namespace Candidate

variable {registry : EnumRegistry} {decl : FunctionDecl} {tags : TagSet}

theorem parameter_invocation? (p : ParameterDecl) (tag : Option ParamTag) :
    (parameter registry p tag).invocation? = (parameter registry p tag).type.invocationKind? := by
  unfold parameter
  dsimp only
  split <;> rfl

theorem parameters_marked {p : Parameter} (h : p ∈ parameters registry decl tags) :
    p.invocation? = p.type.invocationKind? := by
  obtain ⟨q, _, rfl⟩ := List.mem_map.mp h
  exact parameter_invocation? q _

-- ════════════════════════════════════════════════════════════════════════
-- Flags
-- ════════════════════════════════════════════════════════════════════════

theorem options_stream (ps : List Parameter) :
    (options tags ps).stream = true ↔
      (FunctionOptions.ofTags tags).stream = true ∨ ∃ p ∈ ps, p.invocation? = some .streaming := by
  simp [options, isStreaming]

theorem options_cancelable (ps : List Parameter) :
    (options tags ps).cancelable = true ↔
      (FunctionOptions.ofTags tags).cancelable = true ∨
        (∃ p ∈ ps, p.invocation? = some .streaming) ∨ ∃ p ∈ ps, p.invocation? = some .cancelable := by
  simp [options, isStreaming, or_assoc]

/-- If only the last parameter can be an invocation, the stream that is found is the last one. -/
theorem find?_isStreaming {ps : List Parameter} {p : Parameter}
    (hlast : ∀ q ∈ ps.dropLast, q.invocation? = none) (hp : ps.getLast? = some p)
    (hstream : p.invocation? = some .streaming) : ps.find? isStreaming = some p := by
  have hsplit : ps.dropLast ++ [p] = ps := List.dropLast_append_getLast? p hp
  have hnone : ps.dropLast.find? isStreaming = none := by
    rw [List.find?_eq_none]
    intro q hq
    simp [isStreaming, hlast q hq]
  rw [← hsplit, List.find?_append, hnone, List.find?_singleton]
  simp [isStreaming, hstream]

/-- A stream delivers the values of its type argument, or of any type if it has none. -/
theorem delivered_of_kind {type : ValueType} {kind : InvocationKind}
    (h : type.invocationKind? = some kind) :
    type = .invocationOf kind (delivered type) ∨ type = .invocation kind ∧ delivered type = .any := by
  cases type with
  | invocation => exact .inr ⟨congrArg _ (Option.some.inj h), rfl⟩
  | invocationOf => exact .inl (congrArg (ValueType.invocationOf · _) (Option.some.inj h))
  | _ => exact nomatch h

variable {c : Candidate} {marker : Tag}

/-- If the signature of a candidate keeps the rules, its flags and its result agree with its
parameters. -/
theorem IsMadeFrom.optionsAgree (hmade : c.IsMadeFrom registry decl tags marker)
    (hrules : c.signature.KeepsRules) : c.signature.OptionsAgree := by
  have hmarks : c.signature.MarksInvocations := by
    intro p hp
    rw [hmade.parameters] at hp
    exact parameters_marked hp
  have htakes := Signature.takes_iff_endsWith hmarks hrules.invocation_last
  have hstream : c.signature.options.stream = true ↔ c.signature.EndsWith .streaming := by
    rw [← htakes]
    refine ⟨hrules.streaming_served, fun h => ?_⟩
    rw [hmade.options, options_stream]
    exact .inr h
  have hcancelable : c.signature.options.cancelable = true ↔
      c.signature.EndsWith .cancelable ∨ c.signature.EndsWith .streaming := by
    rw [← htakes, ← htakes]
    refine ⟨hrules.cancelable_served, fun h => ?_⟩
    rw [hmade.options, options_cancelable]
    exact .inr h.symm
  have hearlier : ∀ p ∈ c.signature.parameters.dropLast, p.type.invocationKind? = none := by
    intro p hp
    rw [← hmarks p (List.dropLast_subset _ hp)]
    exact hrules.invocation_last p hp
  refine {
    stream_iff := hstream.trans (iff_self_and.mpr fun _ => hearlier)
    cancelable_iff := hcancelable
    cancelable_of_stream := fun h => hcancelable.mpr (.inr (hstream.mp h))
    stream_of_addresses := fun h =>
      hstream.mpr ((htakes _).mp (hrules.stream_addresses_served h))
    sync := fun h => ?_
    delivered := fun h => ?_ }
  · have hplain := (htakes _).mp (hrules.sync_served h)
    refine ⟨hplain, ?_, ?_, ?_⟩
    · rw [Bool.eq_false_iff]
      exact fun hset => nomatch hplain.kind_eq (hstream.mp hset)
    · rw [Bool.eq_false_iff]
      intro hset
      rcases hcancelable.mp hset with hend | hend
      · exact nomatch hplain.kind_eq hend
      · exact nomatch hplain.kind_eq hend
    · rw [Bool.eq_false_iff]
      exact fun hset => hrules.not_exclusive (.supportSync, .volatile) (by decide) ⟨h, hset⟩
  · obtain ⟨p, hp, hkind⟩ := hstream.mp h
    have hfound := find?_isStreaming hrules.invocation_last hp
      ((hmarks p (List.mem_of_getLast? hp)).trans hkind)
    have hresult : c.signature.result = delivered p.type := by
      rw [hmade.result, Candidate.result, hfound]
    exact ⟨p, hp, hresult ▸ delivered_of_kind hkind⟩

-- ════════════════════════════════════════════════════════════════════════
-- Types of parameters and of the result
-- ════════════════════════════════════════════════════════════════════════

/-- The type expression of a parameter, without the marks of tags; the one of its tag comes first. -/
def parameterExpr? (p : ParameterDecl) (tag : Option ParamTag) : Option TypeExpr :=
  (((tag.bind (·.typeText)).map TypeExpr.parse).or p.type?).map fun e =>
    (dropRest p.rest (dropOptional e).1).1

/-- The type expressions of the parameters that have one. -/
def parameterExprs (decl : FunctionDecl) (tags : TagSet) : List TypeExpr :=
  decl.parameters.filterMap fun p =>
    parameterExpr? p ((paramTags decl tags).find? (·.name = p.name))

/-- The type expression that decides the result: the type argument of the first stream among the
parameters or, if there is none, the type of the result tag or else the annotation. -/
def resultExpr? (decl : FunctionDecl) (tags : TagSet) : Option TypeExpr :=
  match (parameterExprs decl tags).findSome? TypeExpr.streamArgument? with
  | some argument => argument
  | none =>
    let written := (tags.first? .returns).bind fun tag => (ReturnsTag.read tag.value).typeText
    (written.map TypeExpr.parse).or decl.returnType?

theorem parameter_type (p : ParameterDecl) (tag : Option ParamTag) :
    (parameter registry p tag).type =
      (parameterExpr? p tag).elim .any (ValueType.resolve registry .parameter) := by
  unfold parameter parameterExpr?
  dsimp only
  cases ((tag.bind (·.typeText)).map TypeExpr.parse).or p.type? <;> rfl

/-- A visible parameter has a type that mentions no invocation. -/
theorem parameters_mentionsInvocation {p : Parameter} (h : p ∈ parameters registry decl tags)
    (hvisible : p.isVisible = true) : p.type.mentionsInvocation = false := by
  rw [Parameter.isVisible, Option.isNone_iff_eq_none, parameters_marked h] at hvisible
  obtain ⟨q, _, rfl⟩ := List.mem_map.mp h
  rw [parameter_type] at hvisible ⊢
  cases hexpr : parameterExpr? q _ with
  | none => rfl
  | some e =>
    rw [hexpr] at hvisible
    exact ValueType.resolve_mentionsInvocation_of_kind registry .parameter hvisible

/-- A parameter delivers values exactly if its expression names a stream, and then those of the type
argument. -/
theorem delivered_parameter (registry : EnumRegistry) (p : ParameterDecl) (tag : Option ParamTag) :
    (if isStreaming (parameter registry p tag) then
        some (delivered (parameter registry p tag).type) else none) =
      ((parameterExpr? p tag).bind TypeExpr.streamArgument?).map
        (·.elim .any (ValueType.resolve registry .result)) := by
  rw [isStreaming, parameter_invocation?, parameter_type]
  cases parameterExpr? p tag with
  | none => rfl
  | some e =>
    rw [Option.elim_some, Option.bind_some, TypeExpr.streamArgument?]
    cases he : e.invocation? .parameter with
    | none =>
      have hfree := ValueType.resolve_of_no_invocation registry .parameter e he
      have hkind : (ValueType.resolve registry .parameter e).invocationKind? = none := by
        by_contra hsome
        rw [ValueType.mentionsInvocation_of_kind (Option.isSome_iff_ne_none.mpr hsome)] at hfree
        exact nomatch hfree
      rw [hkind]
      rfl
    | some found =>
      rw [ValueType.resolve_of_invocation? registry .parameter he]
      obtain ⟨kind, argument⟩ := found
      cases kind <;> cases argument <;> rfl

/-- What the first stream among the parameters delivers, by the expressions of the parameters. -/
theorem delivered_parameters (registry : EnumRegistry) (decl : FunctionDecl) (tags : TagSet) :
    ((parameters registry decl tags).find? isStreaming).map (fun p => delivered p.type) =
      ((parameterExprs decl tags).findSome? TypeExpr.streamArgument?).map
        (·.elim .any (ValueType.resolve registry .result)) := by
  unfold parameters parameterExprs
  dsimp only
  induction decl.parameters with
  | nil => rfl
  | cons p ps ih =>
    have hp := delivered_parameter registry p
      ((paramTags decl tags).find? (·.name = p.name))
    rw [List.map_cons, List.find?_cons, List.filterMap_cons]
    split at hp
    · next hstream =>
      rw [hstream]
      obtain ⟨argument, hargument, hdelivered⟩ := Option.map_eq_some_iff.mp hp.symm
      obtain ⟨e, hexpr, he⟩ := Option.bind_eq_some_iff.mp hargument
      rw [hexpr, List.findSome?_cons, he]
      exact congrArg some hdelivered.symm
    · next hstream =>
      rw [Bool.eq_false_iff.mpr hstream]
      have hnone := Option.map_eq_none_iff.mp hp.symm
      cases hexpr : parameterExpr? p ((paramTags decl tags).find? (·.name = p.name)) with
      | none => exact ih
      | some e =>
        rw [hexpr, Option.bind_some] at hnone
        rw [List.findSome?_cons, hnone]
        exact ih

/-- The result mentions an invocation exactly if the expression that decides it names one. -/
theorem result_mentionsInvocation_iff :
    (result registry decl tags (parameters registry decl tags)).mentionsInvocation = true ↔
      ∃ e, resultExpr? decl tags = some e ∧ (e.invocation? .result).isSome = true := by
  have hdelivered := delivered_parameters registry decl tags
  rw [result, resultExpr?]
  cases hstream : (parameterExprs decl tags).findSome? TypeExpr.streamArgument? with
  | some argument =>
    rw [hstream] at hdelivered
    obtain ⟨p, hp, hresult⟩ := Option.map_eq_some_iff.mp hdelivered
    rw [hp]
    dsimp only
    rw [hresult]
    cases argument with
    | none => simp [ValueType.mentionsInvocation]
    | some e => simp [ValueType.resolve_mentionsInvocation_iff]
  | none =>
    rw [hstream] at hdelivered
    rw [Option.map_eq_none_iff.mp hdelivered]
    dsimp only
    split
    · next e he =>
      rw [he, ValueType.resolve_mentionsInvocation_iff]
      exact ⟨fun h => ⟨e, rfl, h⟩, fun ⟨_, heq, h⟩ => Option.some.inj heq ▸ h⟩
    · next hnone =>
      rw [hnone, ValueType.ofHints_mentionsInvocation]
      exact iff_of_false Bool.false_ne_true fun ⟨_, heq, _⟩ => nomatch heq

end Candidate

end CustomFunctions
