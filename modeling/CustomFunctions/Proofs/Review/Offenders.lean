import CustomFunctions.Proofs.Review.Verdict

/-!
# Which parameters a review tells of

The errors of a review tell of every visible parameter whose type is refused and of every required one
behind an optional one. Of several repeating parameters that are not the last one they tell of the
first only, so a later one is not mentioned unless another rule names it.

## Main definitions

- `Violation.parameterNames` — the parameters that a violation is told of
- `Signature.RefusesType`, `Signature.RequiresLate`, `Signature.RepeatsEarly` — the faults that a
  visible parameter can have
- `Signature.tells_iff` — the names that the violations of a signature tell
- `Review.shows_offenders_iff` — what the errors of a review show of the faults
-/

namespace CustomFunctions

-- ════════════════════════════════════════════════════════════════════════
-- Names in messages
-- ════════════════════════════════════════════════════════════════════════

/-- The name stands in the text between quotation marks. -/
def Text.Quotes (s name : String) : Prop :=
  ∃ before after, s = before ++ "\"" ++ name ++ "\"" ++ after

namespace Text.Quotes

theorem between (before after name : String) {opening closing : String}
    (hopening : opening = before ++ "\"") (hclosing : closing = "\"" ++ after) :
    Text.Quotes (opening ++ name ++ closing) name := by
  refine ⟨before, after, ?_⟩
  rw [hopening, hclosing]
  simp only [String.append_assoc]

theorem append {s name : String} (h : Text.Quotes s name) (t : String) :
    Text.Quotes (s ++ t) name := by
  obtain ⟨before, after, rfl⟩ := h
  exact ⟨before, after ++ t, String.append_assoc⟩

end Text.Quotes

namespace Violation

/-- The parameters that a violation is told of, by their names. -/
def parameterNames : Violation → List String
  | unsupportedParameter name _ => [name]
  | invocationNotLast _ name => [name]
  | repeatingNotLast name => [name]
  | requiredAfterOptional name optional => [name, optional]
  | _ => []

/-- A violation in words shows the names of the parameters that it is told of. -/
theorem message_quotes {v : Violation} {name : String} (h : name ∈ v.parameterNames) :
    Text.Quotes v.message name := by
  cases v with
  | unsupportedParameter other reason =>
    obtain rfl := List.mem_singleton.mp h
    have hquotes : Text.Quotes ("Unsupported type for parameter \"" ++ name ++ "\": ") name :=
      .between "Unsupported type for parameter " ": " name rfl rfl
    exact hquotes.append reason
  | invocationNotLast kind other =>
    obtain rfl := List.mem_singleton.mp h
    have hopening : kind.typeName ++ " parameter \"" = kind.typeName ++ " parameter " ++ "\"" := by
      rw [String.append_assoc]
      rfl
    exact .between _ " must be the last parameter" name hopening rfl
  | repeatingNotLast other =>
    obtain rfl := List.mem_singleton.mp h
    exact .between "Repeating parameter " " must be the last parameter" name rfl rfl
  | requiredAfterOptional required optional =>
    rcases List.mem_cons.mp h with rfl | h
    · have hquotes : Text.Quotes
          ("Required parameter \"" ++ name ++ "\" cannot follow optional parameter \"") name :=
        .between "Required parameter " " cannot follow optional parameter \"" name rfl rfl
      exact (hquotes.append optional).append "\""
    · obtain rfl := List.mem_singleton.mp h
      have hopening : "Required parameter \"" ++ required ++ "\" cannot follow optional parameter \"" =
          "Required parameter \"" ++ required ++ "\" cannot follow optional parameter " ++ "\"" := by
        have hmark : "\" cannot follow optional parameter \"" =
            "\" cannot follow optional parameter " ++ "\"" := rfl
        rw [hmark, ← String.append_assoc]
      exact .between _ "" name hopening rfl
  | _ => cases h

end Violation

namespace Signature

variable (f : Signature) (name : String)

-- ════════════════════════════════════════════════════════════════════════
-- Faults of parameters
-- ════════════════════════════════════════════════════════════════════════

/-- A visible parameter of the name has a type that is not supported. -/
def RefusesType : Prop :=
  ∃ p ∈ f.visible, p.type.unsupportedReason?.isSome = true ∧ p.name = name

/-- A visible parameter of the name repeats and is not the last one. -/
def RepeatsEarly : Prop :=
  ∃ p ∈ f.visible.dropLast, p.repeating = true ∧ p.name = name

/-- The first visible parameter that repeats has the name and is not the last one. -/
def RepeatsFirst : Prop :=
  ∃ before p after, f.visible.dropLast = before ++ p :: after ∧ p.repeating = true ∧
    (∀ q ∈ before, q.repeating = false) ∧ p.name = name

/-- A visible parameter of the name is required and stands behind an optional one. -/
def RequiresLate : Prop :=
  ∃ before p after, f.visible = before ++ p :: after ∧
    (p.optional = false ∧ p.repeating = false) ∧ (∃ q ∈ before, q.optional = true) ∧ p.name = name

/-- The first optional one of the visible parameters has the name, and a required one stands behind
it. -/
def OptsFirst : Prop :=
  ∃ before p after, f.visible = before ++ p :: after ∧ p.optional = true ∧
    (∀ q ∈ before, q.optional = false) ∧
    (∃ q ∈ after, q.optional = false ∧ q.repeating = false) ∧ p.name = name

/-- The first invocation parameter has the name and is not the last parameter. -/
def InvokesEarly : Prop :=
  ∃ before p after, f.parameters = before ++ p :: after ∧ p.invocation?.isSome = true ∧
    (∀ q ∈ before, q.invocation? = none) ∧ after ≠ [] ∧ p.name = name

/-- A violation of the signature is told of the parameters of the name. -/
def Tells (table : DuplicateTable) : Prop :=
  ∃ v ∈ f.violations table, name ∈ v.parameterNames

instance (table : DuplicateTable) : Decidable (f.Tells name table) :=
  inferInstanceAs (Decidable (∃ v ∈ f.violations table, name ∈ v.parameterNames))

-- ════════════════════════════════════════════════════════════════════════
-- The names that each rule tells
-- ════════════════════════════════════════════════════════════════════════

theorem typeViolations_tell_iff :
    (∃ v ∈ f.typeViolations, name ∈ v.parameterNames) ↔ f.RefusesType name := by
  constructor
  · rintro ⟨v, hv, hname⟩
    rcases List.mem_append.mp hv with hv | hv
    · obtain ⟨p, hp, hreason⟩ := List.mem_filterMap.mp hv
      obtain ⟨reason, hsome, rfl⟩ := Option.map_eq_some_iff.mp hreason
      exact ⟨p, hp, Option.isSome_of_eq_some hsome, (List.mem_singleton.mp hname).symm⟩
    · obtain ⟨reason, _, rfl⟩ := Option.map_eq_some_iff.mp (Option.mem_toList.mp hv)
      cases hname
  · rintro ⟨p, hp, hreason, rfl⟩
    obtain ⟨reason, hreason⟩ := Option.isSome_iff_exists.mp hreason
    refine ⟨.unsupportedParameter p.name reason, ?_, List.mem_singleton_self _⟩
    refine List.mem_append_left _ (List.mem_filterMap.mpr ⟨p, hp, ?_⟩)
    rw [hreason]
    rfl

/-- The first parameter that repeats is looked for among all but the last one. -/
theorem earlyRepeating?_eq (ps : List Parameter) :
    earlyRepeating? ps = ps.dropLast.find? (·.repeating) := by
  fun_induction earlyRepeating? ps with
  | case1 p q rest hp => rw [List.dropLast_cons_cons, List.find?_cons_of_pos hp]
  | case2 p q rest hp ih => rw [List.dropLast_cons_cons, List.find?_cons_of_neg hp, ih]
  | case3 ps hps =>
    cases ps with
    | nil => rfl
    | cons p rest =>
      cases rest with
      | nil => rfl
      | cons q rest => exact absurd rfl (hps p q rest)

theorem earlyRepeating?_tells_iff :
    (∃ v ∈ ((earlyRepeating? f.visible).map fun p => Violation.repeatingNotLast p.name).toList,
      name ∈ v.parameterNames) ↔ f.RepeatsFirst name := by
  have hfirst : ∀ p, earlyRepeating? f.visible = some p ↔ ∃ before after,
      f.visible.dropLast = before ++ p :: after ∧ p.repeating = true ∧
        ∀ q ∈ before, q.repeating = false := by
    intro p
    rw [earlyRepeating?_eq, List.find?_eq_some_iff_append]
    constructor
    · rintro ⟨hp, before, after, hsplit, hbefore⟩
      exact ⟨before, after, hsplit, hp, fun q hq => by simpa using hbefore q hq⟩
    · rintro ⟨before, after, hsplit, hp, hbefore⟩
      exact ⟨hp, before, after, hsplit, fun q hq => by simpa using hbefore q hq⟩
  constructor
  · rintro ⟨v, hv, hname⟩
    obtain ⟨p, hp, rfl⟩ := Option.map_eq_some_iff.mp (Option.mem_toList.mp hv)
    obtain ⟨before, after, hsplit, hrepeats, hbefore⟩ := (hfirst p).mp hp
    exact ⟨before, p, after, hsplit, hrepeats, hbefore, (List.mem_singleton.mp hname).symm⟩
  · rintro ⟨before, p, after, hsplit, hrepeats, hbefore, rfl⟩
    have hp := (hfirst p).mpr ⟨before, after, hsplit, hrepeats, hbefore⟩
    refine ⟨.repeatingNotLast p.name, ?_, List.mem_singleton_self _⟩
    rw [hp]
    exact List.mem_singleton_self _

/-- The ways to split a list at an entry: the first entry, or a later one. -/
theorem exists_split_cons {α : Type} {x : α} {xs : List α} {motive : List α → α → Prop} :
    (∃ before y after, x :: xs = before ++ y :: after ∧ motive before y) ↔
      motive [] x ∨ ∃ before y after, xs = before ++ y :: after ∧ motive (x :: before) y := by
  constructor
  · rintro ⟨before, y, after, heq, hy⟩
    cases before with
    | nil =>
      obtain ⟨rfl, rfl⟩ := List.cons.inj heq
      exact .inl hy
    | cons b before =>
      obtain ⟨rfl, rfl⟩ := List.cons.inj heq
      exact .inr ⟨before, y, after, rfl, hy⟩
  · rintro (hx | ⟨before, y, after, rfl, hy⟩)
    · exact ⟨[], x, xs, rfl, hx⟩
    · exact ⟨x :: before, y, after, rfl, hy⟩

/-- A violation is listed for each required parameter for which an optional one has been seen, be it
before the list or in it, and shows the first optional one. -/
theorem mem_lateRequired (seen : Option String) (ps : List Parameter) (v : Violation) :
    v ∈ lateRequired seen ps ↔ ∃ before p after, ps = before ++ p :: after ∧
      (p.optional = false ∧ p.repeating = false) ∧
      ∃ optional, seen.or ((before.find? (·.optional)).map (·.name)) = some optional ∧
        v = .requiredAfterOptional p.name optional := by
  induction ps generalizing seen with
  | nil => simp [lateRequired]
  | cons first rest ih =>
    rw [exists_split_cons]
    by_cases hfirst : first.optional = true
    · have hstep : lateRequired seen (first :: rest) =
          lateRequired (seen.or (some first.name)) rest := if_pos hfirst
      have hsome : ∀ found, (seen.or (some first.name)).or found = seen.or (some first.name) := by
        intro found
        rw [Option.or_assoc, Option.some_or]
      simp only [hstep, ih, hfirst, List.find?_cons_of_pos, hsome, Option.map_some,
        Bool.true_eq_false, false_and, false_or]
    · have hnone : ∀ before : List Parameter,
          (first :: before).find? (·.optional) = before.find? (·.optional) := by
        intro before
        exact List.find?_cons_of_neg hfirst
      cases seen with
      | none =>
        have hstep : lateRequired none (first :: rest) = lateRequired none rest := if_neg hfirst
        simp [hstep, ih, hnone]
      | some optional =>
        have hstep : lateRequired (some optional) (first :: rest) =
            (if first.repeating then [] else [.requiredAfterOptional first.name optional]) ++
              lateRequired (some optional) rest := if_neg hfirst
        rw [Bool.not_eq_true] at hfirst
        simp only [hstep, List.mem_append, ih, hnone, hfirst, true_and, Option.some_or,
          Option.some.injEq, exists_eq_left']
        refine or_congr_left ?_
        cases first.repeating <;> simp

theorem lateRequired_tells_iff :
    (∃ v ∈ lateRequired none f.visible, name ∈ v.parameterNames) ↔
      f.RequiresLate name ∨ f.OptsFirst name := by
  constructor
  · rintro ⟨v, hv, hname⟩
    obtain ⟨before, p, after, hsplit, hp, optional, hfirst, rfl⟩ := (mem_lateRequired ..).mp hv
    rw [Option.none_or] at hfirst
    obtain ⟨q, hq, rfl⟩ := Option.map_eq_some_iff.mp hfirst
    obtain ⟨hoptional, front, back, rfl, hfront⟩ := List.find?_eq_some_iff_append.mp hq
    rcases List.mem_cons.mp hname with rfl | hname
    · exact .inl ⟨_, p, after, hsplit, hp, ⟨q, by simp, hoptional⟩, rfl⟩
    · refine .inr ⟨front, q, back ++ p :: after, by simp [hsplit], hoptional, ?_, ?_, ?_⟩
      · intro r hr
        simpa using hfront r hr
      · exact ⟨p, by simp, hp⟩
      · exact (List.mem_singleton.mp hname).symm
  · rintro (⟨before, p, after, hsplit, hp, hoptional, rfl⟩ |
      ⟨before, p, after, hsplit, hoptional, hbefore, ⟨q, hq, hrequired⟩, rfl⟩)
    · obtain ⟨first, hfirst⟩ := Option.isSome_iff_exists.mp (List.find?_isSome.mpr hoptional)
      refine ⟨.requiredAfterOptional p.name first.name, ?_, List.mem_cons_self⟩
      refine (mem_lateRequired ..).mpr ⟨before, p, after, hsplit, hp, first.name, ?_, rfl⟩
      rw [Option.none_or, hfirst, Option.map_some]
    · obtain ⟨front, back, rfl⟩ := List.append_of_mem hq
      have hfirst : (before ++ p :: front).find? (·.optional) = some p := by
        refine List.find?_eq_some_iff_append.mpr ⟨hoptional, before, front, rfl, ?_⟩
        intro r hr
        simpa using hbefore r hr
      refine ⟨.requiredAfterOptional q.name p.name, ?_, by simp [Violation.parameterNames]⟩
      refine (mem_lateRequired ..).mpr
        ⟨before ++ p :: front, q, back, by simp [hsplit], hrequired, p.name, ?_, rfl⟩
      rw [Option.none_or, hfirst, Option.map_some]

/-- The first invocation parameter is the one whose position is looked at. -/
theorem invocationViolations_tell_of_first {before after : List Parameter} {p : Parameter}
    (hsplit : f.parameters = before ++ p :: after) (hp : p.invocation?.isSome = true)
    (hbefore : ∀ q ∈ before, q.invocation? = none) :
    (∃ v ∈ f.invocationViolations, name ∈ v.parameterNames) ↔ after ≠ [] ∧ p.name = name := by
  obtain ⟨kind, hkind⟩ := Option.isSome_iff_exists.mp hp
  have hfirst : f.invocations =
      (before.length, kind) :: invocationsFrom (before.length + 1) after := by
    rw [invocations, hsplit, invocationsFrom_append, (invocationsFrom_eq_nil 0 before).mpr hbefore,
      List.nil_append, invocationsFrom, hkind, Nat.zero_add]
  have hname : (f.parameters[before.length]?.map (·.name)).getD "" = p.name := by
    simp [hsplit]
  have hlast : before.length = f.parameters.length - 1 ↔ after = [] := by
    rw [← List.length_eq_zero_iff, hsplit, List.length_append, List.length_cons]
    omega
  rw [invocationViolations, hfirst]
  by_cases hafter : after = []
  · simp [hlast, hafter, Violation.parameterNames]
  · simp [hlast, hafter, hname, Violation.parameterNames, eq_comm]

theorem invocationViolations_tell_iff :
    (∃ v ∈ f.invocationViolations, name ∈ v.parameterNames) ↔ f.InvokesEarly name := by
  constructor
  · intro h
    cases hfind : f.parameters.find? (·.invocation?.isSome) with
    | none =>
      have hnone : ∀ p ∈ f.parameters.dropLast, p.invocation? = none := by
        intro p hp
        simpa using List.find?_eq_none.mp hfind p (List.dropLast_subset _ hp)
      obtain ⟨v, hv, _⟩ := h
      rw [(invocationViolations_eq_nil f).mpr hnone] at hv
      cases hv
    | some p =>
      obtain ⟨hp, before, after, hsplit, hbefore⟩ := List.find?_eq_some_iff_append.mp hfind
      have hnone : ∀ q ∈ before, q.invocation? = none := by
        intro q hq
        simpa using hbefore q hq
      obtain ⟨hafter, hname⟩ :=
        (invocationViolations_tell_of_first f name hsplit hp hnone).mp h
      exact ⟨before, p, after, hsplit, hp, hnone, hafter, hname⟩
  · rintro ⟨before, p, after, hsplit, hp, hbefore, hafter, hname⟩
    exact (invocationViolations_tell_of_first f name hsplit hp hbefore).mpr ⟨hafter, hname⟩

/-- The parameters that the violations of a signature are told of: those with refused types, required
ones behind optional ones with the first of these, the first one that repeats and the first one for an
invocation. -/
theorem tells_iff (table : DuplicateTable) :
    f.Tells name table ↔ f.RefusesType name ∨ f.InvokesEarly name ∨ f.RepeatsFirst name ∨
      f.RequiresLate name ∨ f.OptsFirst name := by
  have hconflicts : ¬ ∃ v ∈ (table.conflicts f.id f.name).map Violation.duplicate,
      name ∈ v.parameterNames := by
    simp [Violation.parameterNames]
  have hidentifiers : ¬ ∃ v ∈ f.identifierViolations, name ∈ v.parameterNames := by
    rintro ⟨v, hv, hname⟩
    rcases List.mem_append.mp hv with hv | hv
    all_goals
      split at hv
      · cases hv
      · obtain rfl := List.mem_singleton.mp hv
        cases hname
  have hexclusions : ¬ ∃ v ∈ f.exclusionViolations, name ∈ v.parameterNames := by
    simp [exclusionViolations, Violation.parameterNames]
  have hneeds : ¬ ∃ v ∈ f.needViolations, name ∈ v.parameterNames := by
    rintro ⟨v, hv, hname⟩
    obtain ⟨need, _, hv⟩ := List.mem_filterMap.mp hv
    obtain ⟨_, hv⟩ := Option.ite_none_right_eq_some.mp hv
    obtain rfl := Option.some.inj hv
    cases hname
  have hreturn : ¬ ∃ v ∈ f.returnViolations, name ∈ v.parameterNames := by
    rintro ⟨v, hv, hname⟩
    rw [returnViolations] at hv
    split at hv
    · split at hv
      · split at hv
        · cases hv
        · obtain rfl := List.mem_singleton.mp hv
          cases hname
      · cases hv
    · cases hv
  simp only [Tells, violations, orderViolations, List.mem_append, or_and_right, exists_or, hconflicts,
    hidentifiers, hexclusions, hneeds, hreturn, typeViolations_tell_iff,
    invocationViolations_tell_iff, earlyRepeating?_tells_iff, lateRequired_tells_iff, false_or,
    or_assoc]

end Signature

namespace Review

/-- An error of the review shows the name between quotation marks. -/
def Shows (r : Review) (name : String) : Prop :=
  ∃ d ∈ r.diagnostics, d.isError = true ∧ Text.Quotes d.message name

/-- Whatever a violation is told of is shown by an error of the review. -/
theorem shows_of_tells {table : DuplicateTable} {c : Candidate} {name : String}
    (h : c.signature.Tells name table) : (ofCandidate table c).Shows name := by
  obtain ⟨v, hv, hname⟩ := h
  refine ⟨error c.signature v, ?_, rfl, v.message_quotes hname⟩
  exact List.mem_append_right _ (List.mem_map_of_mem hv)

/-- A review shows every visible parameter whose type is refused, every required one behind an optional
one, and of those that repeat early the first one. What else the violations tell of is the first optional
parameter with a required one behind it and a misplaced invocation, so a later parameter that repeats
early is told of only if its name is among these. -/
theorem shows_offenders_iff (table : DuplicateTable) (c : Candidate) (name : String) :
    let f := c.signature
    (f.RefusesType name ∨ f.RequiresLate name ∨ f.RepeatsFirst name →
      (ofCandidate table c).Shows name) ∧
    (f.Tells name table → (ofCandidate table c).Shows name) ∧
    (f.Tells name table ↔ f.RefusesType name ∨ f.InvokesEarly name ∨ f.RepeatsFirst name ∨
      f.RequiresLate name ∨ f.OptsFirst name) := by
  intro f
  have htells := f.tells_iff name table
  refine ⟨?_, shows_of_tells, htells⟩
  rintro (htype | hlate | hfirst)
  · exact shows_of_tells (htells.mpr (.inl htype))
  · exact shows_of_tells (htells.mpr (.inr (.inr (.inr (.inl hlate)))))
  · exact shows_of_tells (htells.mpr (.inr (.inr (.inl hfirst))))

/-- A function with two parameters that repeat before its last one. -/
def foldCandidate : Candidate where
  signature := {
    id := "FOLD"
    name := "FOLD"
    codeName := "fold"
    description := ""
    helpUrl := none
    parameters := [
      { name := "rows", type := .number, description := "", optional := false, repeating := true,
        line := 7 },
      { name := "columns", type := .number, description := "", optional := false, repeating := true,
        line := 7 },
      { name := "total", type := .number, description := "", optional := false, repeating := false,
        line := 7 }]
    result := .any
    options := FunctionOptions.ofTags ⟨"", []⟩
    declaredReturn := none
    line := 7 }
  diagnostics := []

/-- Of two parameters that repeat early the first one is shown and the second one is not told of. -/
theorem shows_offenders_fold :
    foldCandidate.signature.RepeatsFirst "rows" ∧ (ofCandidate .empty foldCandidate).Shows "rows" ∧
      foldCandidate.signature.RepeatsEarly "columns" ∧
      ¬ foldCandidate.signature.Tells "columns" .empty := by
  have hrows : foldCandidate.signature.RepeatsFirst "rows" :=
    ⟨[], _, _, rfl, rfl, nofun, rfl⟩
  refine ⟨hrows, (shows_offenders_iff .empty foldCandidate "rows").1 (.inr (.inr hrows)), ?_, ?_⟩
  · exact ⟨_, List.mem_cons_of_mem _ List.mem_cons_self, rfl, rfl⟩
  · decide +kernel

/-- The second of two parameters that repeat early is not mentioned by any error. -/
theorem not_forall_offenders_shown :
    ¬ ∀ (table : DuplicateTable) (c : Candidate) (name : String),
      c.signature.RefusesType name ∨ c.signature.RepeatsEarly name ∨ c.signature.RequiresLate name →
        ∃ d ∈ (ofCandidate table c).diagnostics,
          d.isError = true ∧ name.toList <:+: d.message.toList := by
  intro h
  have hcolumns : foldCandidate.signature.RepeatsEarly "columns" :=
    ⟨_, List.mem_cons_of_mem _ List.mem_cons_self, rfl, rfl⟩
  have hshown := h .empty foldCandidate "columns" (.inr (.inl hcolumns))
  revert hshown
  decide +kernel

end Review

end CustomFunctions
