import CustomFunctions.Proofs.DuplicateTable
import CustomFunctions.Proofs.Text.Basic
import CustomFunctions.Review.Rules
import Mathlib.Data.List.Basic

/-!
# What the rules ask for

The rules for custom functions as conditions on a signature, apart from the way in which violations
are collected. Every collecting function is tied to its condition, and together they show that a
signature has no violations exactly if it keeps all rules and clashes with no earlier claim.

## Main definitions

- `Signature.KeepsRules` — the conditions, whatever other functions are declared
- `Signature.violations_eq_nil` — no violations means that the rules are kept
-/

namespace CustomFunctions

/-- The texts that match `^[A-Za-z_][A-Za-z0-9_.]{0,127}$`. -/
def IsHostName (s : String) : Prop :=
  ∃ c rest, s.toList = c :: rest ∧
    (('A' ≤ c ∧ c ≤ 'Z') ∨ ('a' ≤ c ∧ c ≤ 'z') ∨ c = '_') ∧
    (∀ d ∈ rest, ('A' ≤ d ∧ d ≤ 'Z') ∨ ('a' ≤ d ∧ d ≤ 'z') ∨ ('0' ≤ d ∧ d ≤ '9') ∨ d = '_' ∨
      d = '.') ∧
    rest.length ≤ 127

/-- The type `void` and promises of it. -/
inductive IsVoid : TypeExpr → Prop where
  | void : IsVoid (.named "void")
  | promise {e : TypeExpr} (h : IsVoid e) : IsVoid (.generic "Promise" [e])

namespace Signature

/-- What the function claims once it is accepted. -/
def claim (f : Signature) : Claim :=
  ⟨f.id, f.name, f.codeName⟩

/-- The host passes an invocation of the given kind to the function. -/
def Takes (f : Signature) (kind : InvocationKind) : Prop :=
  ∃ p ∈ f.parameters, p.invocation? = some kind

/-- What the rules ask of a signature, whatever other functions are declared. -/
structure KeepsRules (f : Signature) : Prop where
  id_valid : IsHostName f.id
  name_valid : IsHostName f.name
  result_supported : f.result.unsupportedReason? = none
  parameters_supported :
    ∀ p ∈ f.parameters, p.invocation? = none → p.type.unsupportedReason? = none
  not_exclusive :
    ∀ pair ∈ exclusivePairs, ¬ (f.options.isSet pair.1 = true ∧ f.options.isSet pair.2 = true)
  one_invocation : f.parameters.countP (·.invocation?.isSome) ≤ 1
  invocation_last : ∀ p ∈ f.parameters.dropLast, p.invocation? = none
  streaming_served : f.options.stream = true → f.Takes .streaming
  cancelable_served : f.options.cancelable = true → f.Takes .cancelable ∨ f.Takes .streaming
  addresses_served :
    f.options.requiresAddress = true ∨ f.options.requiresParameterAddresses = true →
      if f.options.stream then f.Takes .streaming else ∃ kind, f.Takes kind
  stream_addresses_served :
    f.options.requiresStreamAddress = true ∨ f.options.requiresStreamParameterAddresses = true →
      f.Takes .streaming
  sync_served : f.options.supportSync = true → f.Takes .plain
  returns_void : f.options.stream = true → ∀ e, f.declaredReturn = some e → IsVoid e
  repeating_last : ∀ p ∈ f.visible.dropLast, p.repeating = false
  required_first :
    f.visible.Pairwise fun p q => p.optional = true → q.optional = true ∨ q.repeating = true

-- ════════════════════════════════════════════════════════════════════════
-- Ids, types and exclusive tags
-- ════════════════════════════════════════════════════════════════════════

theorem isFunctionIdChar_iff (c : Char) :
    Identifier.isFunctionIdChar c = true ↔
      ('A' ≤ c ∧ c ≤ 'Z') ∨ ('a' ≤ c ∧ c ≤ 'z') ∨ ('0' ≤ c ∧ c ≤ '9') ∨ c = '_' ∨ c = '.' := by
  simp only [Identifier.isFunctionIdChar, Char.isAlphanum, Char.isDigit, Bool.or_eq_true,
    Bool.and_eq_true, Text.isAlpha_iff, decide_eq_true_eq, Char.le_def, ge_iff_le, or_assoc]

theorem isFunctionId_iff (s : String) : Identifier.isFunctionId s = true ↔ IsHostName s := by
  unfold Identifier.isFunctionId IsHostName
  cases s.toList with
  | nil => simp
  | cons c rest =>
    simp only [List.cons.injEq, Bool.and_eq_true, Bool.or_eq_true, List.all_eq_true, decide_eq_true_eq,
      Text.isAlpha_iff, isFunctionIdChar_iff, Identifier.maxLength, Nat.lt_succ_iff, or_assoc]
    constructor
    · rintro ⟨⟨hc, hrest⟩, hlen⟩
      exact ⟨c, rest, ⟨rfl, rfl⟩, hc, hrest, hlen⟩
    · rintro ⟨c', rest', ⟨rfl, rfl⟩, hc, hrest, hlen⟩
      exact ⟨⟨hc, hrest⟩, hlen⟩

theorem identifierViolations_eq_nil (f : Signature) :
    f.identifierViolations = [] ↔ IsHostName f.id ∧ IsHostName f.name := by
  rw [← isFunctionId_iff, ← isFunctionId_iff, identifierViolations, List.append_eq_nil_iff]
  constructor
  · rintro ⟨hid, hname⟩
    constructor
    · by_contra h
      simp [h] at hid
    · by_contra h
      simp [h] at hname
  · rintro ⟨hid, hname⟩
    simp [hid, hname]

theorem typeViolations_eq_nil (f : Signature) :
    f.typeViolations = [] ↔
      (∀ p ∈ f.parameters, p.invocation? = none → p.type.unsupportedReason? = none) ∧
        f.result.unsupportedReason? = none := by
  simp [typeViolations, visible, Parameter.isVisible, List.filterMap_eq_nil_iff]

theorem exclusionViolations_eq_nil (f : Signature) :
    f.exclusionViolations = [] ↔
      ∀ pair ∈ exclusivePairs,
        ¬ (f.options.isSet pair.1 = true ∧ f.options.isSet pair.2 = true) := by
  simp only [exclusionViolations, List.map_eq_nil_iff, List.filter_eq_nil_iff, Bool.and_eq_true]

-- ════════════════════════════════════════════════════════════════════════
-- Invocation parameters
-- ════════════════════════════════════════════════════════════════════════

theorem invocationsFrom_append (start : Nat) (ps qs : List Parameter) :
    invocationsFrom start (ps ++ qs) =
      invocationsFrom start ps ++ invocationsFrom (start + ps.length) qs := by
  induction ps generalizing start with
  | nil => simp [invocationsFrom]
  | cons p ps ih =>
    have hlen : start + (p :: ps).length = start + 1 + ps.length := by
      rw [List.length_cons]
      omega
    rw [hlen, List.cons_append, invocationsFrom, invocationsFrom, ih]
    cases p.invocation? <;> rfl

theorem invocationsFrom_eq_nil (start : Nat) (ps : List Parameter) :
    invocationsFrom start ps = [] ↔ ∀ p ∈ ps, p.invocation? = none := by
  induction ps generalizing start with
  | nil => simp [invocationsFrom]
  | cons p ps ih =>
    rw [invocationsFrom]
    cases hp : p.invocation? with
    | none => simp [ih, hp]
    | some kind => simp [hp]

theorem lt_of_mem_invocationsFrom {start position : Nat} {kind : InvocationKind}
    {ps : List Parameter} (h : (position, kind) ∈ invocationsFrom start ps) :
    position < start + ps.length := by
  induction ps generalizing start with
  | nil => simp [invocationsFrom] at h
  | cons p ps ih =>
    rw [List.length_cons]
    rw [invocationsFrom] at h
    cases hp : p.invocation? with
    | none =>
      rw [hp] at h
      have := ih h
      omega
    | some kind' =>
      rw [hp] at h
      rcases List.mem_cons.mp h with heq | h
      · have hpos : position = start := congrArg Prod.fst heq
        omega
      · have := ih h
        omega

/-- If no parameter but the last is an invocation, the last one alone decides. -/
theorem invocations_of_last {f : Signature}
    (h : ∀ p ∈ f.parameters.dropLast, p.invocation? = none) :
    f.invocations =
      ((f.parameters.getLast?.bind (·.invocation?)).map
        fun kind => (f.parameters.length - 1, kind)).toList := by
  unfold invocations
  rcases List.eq_nil_or_concat' f.parameters with hnil | ⟨init, last, hps⟩
  · rw [hnil]
    rfl
  · rw [hps] at h ⊢
    rw [List.dropLast_concat] at h
    rw [invocationsFrom_append, (invocationsFrom_eq_nil 0 init).mpr h,
      List.nil_append, List.getLast?_concat, List.length_append, List.length_singleton]
    cases hp : last.invocation? <;> simp [invocationsFrom, hp]

theorem invocationViolations_eq_nil (f : Signature) :
    f.invocationViolations = [] ↔ ∀ p ∈ f.parameters.dropLast, p.invocation? = none := by
  constructor
  · intro hnil
    by_contra hcon
    rcases List.eq_nil_or_concat' f.parameters with hps | ⟨init, last, hps⟩
    · simp [hps] at hcon
    · rw [hps, List.dropLast_concat, ← invocationsFrom_eq_nil 0] at hcon
      obtain ⟨⟨position, kind⟩, more, hinit⟩ := List.exists_cons_of_ne_nil hcon
      have hmem : (position, kind) ∈ invocationsFrom 0 init := by
        rw [hinit]
        exact List.mem_cons_self
      have hlt : position < 0 + init.length := lt_of_mem_invocationsFrom hmem
      have hall : f.invocations = (position, kind) :: (more ++ invocationsFrom init.length [last]) := by
        rw [invocations, hps, invocationsFrom_append, hinit, Nat.zero_add]
        rfl
      have hne : ¬ position = f.parameters.length - 1 := by
        rw [hps, List.length_append, List.length_singleton]
        omega
      simp [invocationViolations, hall, hne] at hnil
  · intro h
    rw [invocationViolations, invocations_of_last h]
    cases f.parameters.getLast?.bind (·.invocation?) <;> simp

theorem takes_iff_of_last {f : Signature}
    (h : ∀ p ∈ f.parameters.dropLast, p.invocation? = none) (kind : InvocationKind) :
    f.invocations.head?.map (·.2) = some kind ↔ f.Takes kind := by
  rw [invocations_of_last h]
  unfold Takes
  rcases List.eq_nil_or_concat' f.parameters with hnil | ⟨init, last, hps⟩
  · simp [hnil]
  · rw [hps] at h ⊢
    rw [List.dropLast_concat] at h
    rw [List.getLast?_concat]
    constructor
    · intro hk
      refine ⟨last, by simp, ?_⟩
      cases hp : last.invocation? <;> simp_all
    · rintro ⟨p, hp, hk⟩
      rcases List.mem_append.mp hp with hp | hp
      · rw [h p hp] at hk
        simp at hk
      · obtain rfl := List.mem_singleton.mp hp
        simp [hk]

theorem countP_invocation_le_one {f : Signature}
    (h : ∀ p ∈ f.parameters.dropLast, p.invocation? = none) :
    f.parameters.countP (·.invocation?.isSome) ≤ 1 := by
  rcases List.eq_nil_or_concat' f.parameters with hnil | ⟨init, last, hps⟩
  · simp [hnil]
  · rw [hps] at h ⊢
    rw [List.dropLast_concat] at h
    have hinit : init.countP (·.invocation?.isSome) = 0 := by
      rw [List.countP_eq_zero]
      intro p hp
      simp [h p hp]
    rw [List.countP_append, hinit, Nat.zero_add]
    exact List.countP_le_length

-- ════════════════════════════════════════════════════════════════════════
-- Tags that need an invocation
-- ════════════════════════════════════════════════════════════════════════

theorem needViolations_eq_nil (f : Signature) :
    f.needViolations = [] ↔
      ∀ need ∈ f.invocationNeeds, f.options.isSet need.1 = true → need.2.1 = true := by
  rw [needViolations, List.filterMap_eq_nil_iff]
  constructor
  · intro h need hneed hset
    by_contra hserved
    have := h need hneed
    simp [hset, hserved] at this
  · intro h need hneed
    by_cases hset : f.options.isSet need.1 = true
    · simp [h need hneed hset]
    · simp [hset]

theorem invocationNeeds_served {f : Signature}
    (hlast : ∀ p ∈ f.parameters.dropLast, p.invocation? = none) :
    (∀ need ∈ f.invocationNeeds, f.options.isSet need.1 = true → need.2.1 = true) ↔
      (f.options.stream = true → f.Takes .streaming) ∧
      (f.options.cancelable = true → f.Takes .cancelable ∨ f.Takes .streaming) ∧
      (f.options.requiresAddress = true ∨ f.options.requiresParameterAddresses = true →
        if f.options.stream then f.Takes .streaming else ∃ kind, f.Takes kind) ∧
      (f.options.requiresStreamAddress = true ∨
          f.options.requiresStreamParameterAddresses = true → f.Takes .streaming) ∧
      (f.options.supportSync = true → f.Takes .plain) := by
  have hsome : (f.invocations.head?.map (·.2)).isSome = true ↔ ∃ kind, f.Takes kind := by
    simp only [Option.isSome_iff_exists, takes_iff_of_last hlast]
  simp only [invocationNeeds, List.forall_mem_cons, List.not_mem_nil, false_imp_iff,
    FunctionOptions.isSet, Bool.or_eq_true, decide_eq_true_eq, hsome,
    takes_iff_of_last hlast, or_imp, implies_true, and_true, and_assoc]

-- ════════════════════════════════════════════════════════════════════════
-- Streams and the order of parameters
-- ════════════════════════════════════════════════════════════════════════

theorem isVoid_iff (e : TypeExpr) : isVoid e = true ↔ IsVoid e := by
  constructor
  · intro h
    fun_induction isVoid e with
    | case1 name =>
      rw [decide_eq_true_eq] at h
      subst h
      exact .void
    | case2 name inner ih =>
      rw [Bool.and_eq_true, decide_eq_true_eq] at h
      obtain ⟨rfl, hinner⟩ := h
      exact .promise (ih hinner)
    | case3 => simp at h
  · intro h
    induction h with
    | void => rfl
    | promise _ ih => simp [isVoid, ih]

theorem returnViolations_eq_nil (f : Signature) :
    f.returnViolations = [] ↔
      (f.options.stream = true → ∀ e, f.declaredReturn = some e → IsVoid e) := by
  rw [returnViolations]
  cases hstream : f.options.stream with
  | false => simp
  | true =>
    cases hreturn : f.declaredReturn with
    | none => simp
    | some e => cases he : isVoid e <;> simp [he, ← isVoid_iff]

theorem earlyRepeating?_eq_none (ps : List Parameter) :
    earlyRepeating? ps = none ↔ ∀ p ∈ ps.dropLast, p.repeating = false := by
  fun_induction earlyRepeating? ps with
  | case1 p q rest hp => simp [hp]
  | case2 p q rest hp ih => simp [hp, ih]
  | case3 ps hps =>
    match ps, hps with
    | [], _ => simp
    | [p], _ => simp
    | p :: q :: rest, h => exact absurd rfl (h p q rest)

/-- Behind an optional parameter, also one seen before, all parameters are optional or repeat. -/
theorem lateRequired_eq_nil (seen : Option String) (ps : List Parameter) :
    lateRequired seen ps = [] ↔
      (seen.isSome = true → ∀ p ∈ ps, p.optional = true ∨ p.repeating = true) ∧
        ps.Pairwise fun p q => p.optional = true → q.optional = true ∨ q.repeating = true := by
  fun_induction lateRequired seen ps with
  | case1 => simp
  | case2 seen p rest hp ih =>
    have hsome : (seen.or (some p.name)).isSome = true := by
      cases seen <;> rfl
    rw [ih, List.pairwise_cons, List.forall_mem_cons]
    simp only [hsome, hp, true_imp_iff, true_or, true_and]
    constructor
    · rintro ⟨hall, hrest⟩
      exact ⟨fun _ => hall, hall, hrest⟩
    · rintro ⟨_, hall, hrest⟩
      exact ⟨hall, hrest⟩
  | case3 p rest hp optional ih => by_cases hr : p.repeating = true <;> simp [ih, hp, hr]
  | case4 p rest hp ih => simp [ih, hp]

theorem orderViolations_eq_nil (f : Signature) :
    f.orderViolations = [] ↔ (∀ p ∈ f.visible.dropLast, p.repeating = false) ∧
      f.visible.Pairwise fun p q => p.optional = true → q.optional = true ∨ q.repeating = true := by
  rw [orderViolations, List.append_eq_nil_iff, Option.toList_eq_nil_iff, Option.map_eq_none_iff,
    earlyRepeating?_eq_none, lateRequired_eq_nil]
  simp

/-- A signature has no violations exactly if it keeps the rules and clashes with no claim. -/
theorem violations_eq_nil (f : Signature) (table : DuplicateTable) :
    f.violations table = [] ↔ f.KeepsRules ∧ ∀ k ∈ table.claims, ¬ k.Clashes f.claim := by
  simp only [violations, List.append_eq_nil_iff, List.map_eq_nil_iff, and_assoc,
    identifierViolations_eq_nil, typeViolations_eq_nil, exclusionViolations_eq_nil,
    invocationViolations_eq_nil, needViolations_eq_nil, returnViolations_eq_nil,
    orderViolations_eq_nil]
  have hconflicts := table.conflicts_eq_nil f.claim
  constructor
  · rintro ⟨hfresh, hid, hname, hparameters, hresult, hexclusive, hlast, hneeds, hreturn,
      hrepeating, hrequired⟩
    obtain ⟨hstreaming, hcancelable, haddress, hstreamAddress, hsync⟩ :=
      (invocationNeeds_served hlast).mp hneeds
    exact ⟨⟨hid, hname, hresult, hparameters, hexclusive, countP_invocation_le_one hlast, hlast,
      hstreaming, hcancelable, haddress, hstreamAddress, hsync, hreturn, hrepeating, hrequired⟩,
      hconflicts.mp hfresh⟩
  · rintro ⟨h, hfresh⟩
    have hneeds := (invocationNeeds_served h.invocation_last).mpr
      ⟨h.streaming_served, h.cancelable_served, h.addresses_served, h.stream_addresses_served,
        h.sync_served⟩
    exact ⟨hconflicts.mpr hfresh, h.id_valid, h.name_valid, h.parameters_supported,
      h.result_supported, h.not_exclusive, h.invocation_last, hneeds, h.returns_void, h.repeating_last,
      h.required_first⟩

end Signature

end CustomFunctions
