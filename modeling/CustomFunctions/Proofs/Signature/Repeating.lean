import CustomFunctions.Proofs.Signature.Invocations
import CustomFunctions.Proofs.ValueType.Spellings

/-!
# Parameters that repeat

A parameter that takes all remaining arguments repeats the element type of its array. The level is
taken off the expression before it is resolved, so it is taken off exactly where the expression is
written with an array level: not where the array is the bare name `Array` or comes out of a union.
Such a parameter repeats whole arrays.

## Main definitions

- `Candidate.annotation?` — the type expression of a parameter, the one of its tag before the one in
  the code
- `ValueType.IsElementOf` — what is left of an array with one dimension less
- `Candidate.parameter_repeats_iff` — when a parameter repeats the element type of its array
-/

namespace CustomFunctions

/-- Does the expression carry a mark by which tags say that a parameter repeats or is optional? -/
def TypeExpr.isMarked : TypeExpr → Bool
  | .variadic _ => true
  | .optional _ => true
  | _ => false

namespace ValueType

/-- The type is what is left of an array with one dimension less. -/
def IsElementOf (type element : ValueType) (dimensions : Nat) : Prop :=
  (dimensions = 1 ∧ type = element) ∨ (dimensions = 2 ∧ type = .array element 1)

theorem not_isElementOf_self (element : ValueType) (dimensions : Nat) :
    ¬ (array element dimensions).IsElementOf element dimensions := by
  rintro (⟨_, heq⟩ | ⟨rfl, heq⟩)
  · have hsize := congrArg sizeOf heq
    rw [array.sizeOf_spec] at hsize
    omega
  · cases heq

variable {registry : EnumRegistry} {position : Position} {e inner : TypeExpr} {element : ValueType}
  {dimensions : Nat}

-- ════════════════════════════════════════════════════════════════════════
-- Expressions written with an array level
-- ════════════════════════════════════════════════════════════════════════

theorem ofArray_eq_array_iff {resolved : ValueType} {depth : Nat} :
    ofArray e depth resolved = .array element dimensions ↔
      resolved.isScalar = true ∧ resolved = element ∧ depth = dimensions := by
  cases resolved <;> simp [ofArray, isUnsupported, isScalar]

/-- What stands inside an array level resolves to the elements of the array. -/
theorem isElementOf_of_element (hinner : e.element? = some inner)
    (h : resolve registry position e = .array element dimensions) :
    (resolve registry position inner).IsElementOf element dimensions := by
  have hlevels := TypeExpr.core_of_element hinner
  rw [resolve_of_element hinner] at h
  split at h
  · next hmax =>
    obtain ⟨hscalar, hcore, hdepth⟩ := ofArray_eq_array_iff.mp h
    rw [TypeExpr.arrayDepth, hlevels] at hmax hdepth
    rw [hlevels] at hscalar hcore
    cases hdeeper : inner.element? with
    | none =>
      rw [TypeExpr.core_of_no_element hdeeper] at hcore hdepth
      exact .inl ⟨hdepth.symm, hcore⟩
    | some x =>
      -- two levels are the most that are not refused, so one is left
      have hone : inner.arrayDepth = 1 :=
        Nat.le_antisymm (Nat.le_of_succ_le_succ hmax) (one_le_arrayDepth hdeeper)
      refine .inr ⟨hdepth.symm.trans (congrArg (· + 1) hone), ?_⟩
      rw [resolve_of_element hdeeper, hone, if_pos (by decide)]
      exact ofArray_eq_array_iff.mpr ⟨hscalar, hcore, rfl⟩
  · cases h

-- ════════════════════════════════════════════════════════════════════════
-- Other expressions
-- ════════════════════════════════════════════════════════════════════════

/-- Of the names only the bare `Array` stands for an array. -/
theorem ofName_eq_array {name : String}
    (h : ofName registry position name = .array element dimensions) : name = "Array" := by
  by_contra hname
  have hkeyword : ∀ type, ofKeyword? name = some type → type ≠ .array element dimensions := by
    intro type htype heq
    unfold ofKeyword? at htype
    simp only [hname, if_false] at htype
    repeat' split at htype
    all_goals
      first
      | cases htype
        done
      | obtain rfl := Option.some.inj htype
        cases heq
  unfold ofName at h
  split at h
  · next htype => exact hkeyword _ htype h
  · split at h
    · cases h
    · split at h
      · split at h <;> cases h
      · cases hfind : registry.find? name with
        | none =>
          rw [hfind] at h
          cases h
        | some entry =>
          rw [hfind] at h
          cases entry <;> cases h

theorem resolve_generic_ne_array {name : String} {args : List TypeExpr}
    (hnone : (TypeExpr.generic name args).element? = none) :
    resolve registry .parameter (.generic name args) ≠ .array element dimensions := by
  intro h
  cases args with
  | nil =>
    rw [resolve] at h
    cases h
  | cons inner rest =>
    cases rest with
    | cons next rest =>
      have hrefused := resolve_arguments registry .parameter name inner next rest
      rw [h] at hrefused
      cases hrefused
    | nil =>
      rw [resolve_reference hnone] at h
      split at h
      · cases h
      · split at h <;> cases h

/-- Without a mark and an array level, a parameter has an array type only by the bare name or by a
union. -/
theorem array_of_no_element (hmarked : e.isMarked = false) (hnone : e.element? = none)
    (h : resolve registry .parameter e = .array element dimensions) :
    e = .named "Array" ∨ ∃ members, e = .union members := by
  cases e with
  | named name =>
    rw [resolve_named] at h
    exact .inl (congrArg _ (ofName_eq_array h))
  | union members => exact .inr ⟨members, rfl⟩
  | generic name args => exact absurd h (resolve_generic_ne_array hnone)
  | array => cases hnone
  | variadic => cases hmarked
  | optional => cases hmarked
  | tuple members =>
    have hrefused := resolve_tuple registry .parameter members
    rw [h] at hrefused
    cases hrefused
  | literal kind =>
    rw [resolve] at h
    cases kind <;> cases h
  | object =>
    rw [resolve] at h
    cases h
  | function =>
    rw [resolve] at h
    cases h
  | invalid text =>
    rw [resolve] at h
    dsimp only [TypeExpr.element?] at h
    split at h <;> cases h

end ValueType

namespace Candidate

-- ════════════════════════════════════════════════════════════════════════
-- Parameters that take all remaining arguments
-- ════════════════════════════════════════════════════════════════════════

/-- The type expression of a parameter: that of its tag or else the one in the code. -/
def annotation? (p : ParameterDecl) (tag : Option ParamTag) : Option TypeExpr :=
  ((tag.bind (·.typeText)).map TypeExpr.parse).or p.type?

variable {registry : EnumRegistry} {p : ParameterDecl} {tag : Option ParamTag} {e : TypeExpr}
  {element : ValueType} {dimensions : Nat}

theorem parameter_repeating (hrest : p.rest = true) :
    (parameter registry p tag).repeating = true := by
  unfold parameter
  dsimp only
  split
  · exact hrest
  · rw [hrest]
    rfl

/-- Such a parameter has the type of what stands inside the array level of its expression, if there is
one. -/
theorem parameter_type_of_rest (registry : EnumRegistry) (hrest : p.rest = true)
    (he : annotation? p tag = some e) (hmarked : e.isMarked = false) :
    (parameter registry p tag).type =
      ValueType.resolve registry .parameter (e.element?.getD e) := by
  have hexpr : parameterExpr? p tag = some (e.element?.getD e) := by
    show (annotation? p tag).map (fun e => (dropRest p.rest (dropOptional e).1).1) = _
    rw [he, hrest]
    cases e with
    | variadic => cases hmarked
    | optional => cases hmarked
    | _ => rfl
  rw [parameter_type, hexpr]
  rfl

/-- A parameter that takes all remaining arguments and has an array type repeats the element type of
the array, unless the array is the bare name or comes out of a union; then it repeats the array. -/
theorem parameter_repeats_iff (hrest : p.rest = true) (he : annotation? p tag = some e)
    (hmarked : e.isMarked = false)
    (harray : ValueType.resolve registry .parameter e = .array element dimensions) :
    (parameter registry p tag).repeating = true ∧
      ((parameter registry p tag).type.IsElementOf element dimensions ↔
        ¬ (e = .named "Array" ∨ ∃ members, e = .union members)) ∧
      ((e = .named "Array" ∨ ∃ members, e = .union members) →
        (parameter registry p tag).type = .array element dimensions) := by
  have htype := parameter_type_of_rest registry hrest he hmarked
  have hwhole : (e = .named "Array" ∨ ∃ members, e = .union members) →
      (parameter registry p tag).type = .array element dimensions := by
    rintro (rfl | ⟨members, rfl⟩)
    · rw [htype]
      exact harray
    · rw [htype]
      exact harray
  refine ⟨parameter_repeating hrest, ⟨fun helement hwritten => ?_, fun hwritten => ?_⟩, hwhole⟩
  · rw [hwhole hwritten] at helement
    exact ValueType.not_isElementOf_self element dimensions helement
  · cases hinner : e.element? with
    | none => exact absurd (ValueType.array_of_no_element hmarked hinner harray) hwritten
    | some inner =>
      rw [htype, hinner]
      exact ValueType.isElementOf_of_element hinner harray

/-- A parameter that takes any number of tables, in mixed spellings of arrays. -/
def tables : ParameterDecl where
  name := "tables"
  type? := some (.array (.generic "ReadonlyArray" [.named "number"]))
  rest := true

/-- The parameter of tables repeats a row of numbers. -/
theorem parameter_repeats_iff_tables :
    tables.rest = true ∧
      annotation? tables none = some (.array (.generic "ReadonlyArray" [.named "number"])) ∧
        ValueType.resolve .empty .parameter (.array (.generic "ReadonlyArray" [.named "number"])) =
            .array .number 2 ∧
          (parameter .empty tables none).repeating = true ∧
            (parameter .empty tables none).type.IsElementOf .number 2 := by
  have harray : ValueType.resolve .empty .parameter
      (.array (.generic "ReadonlyArray" [.named "number"])) = .array .number 2 := by
    rw [ValueType.resolve_of_element rfl, TypeExpr.arrayDepth, TypeExpr.core_of_element rfl,
      TypeExpr.core_of_element rfl, TypeExpr.core_of_no_element rfl]
    rw [ValueType.resolve_number]
    rfl
  have hannotation : annotation? tables none =
      some (.array (.generic "ReadonlyArray" [.named "number"])) := rfl
  have hrest : tables.rest = true := rfl
  obtain ⟨hrepeating, hiff, _⟩ := parameter_repeats_iff hrest hannotation rfl harray
  exact ⟨rfl, rfl, harray, hrepeating, hiff.mpr (by simp)⟩

/-- A parameter that takes all remaining arguments and has the type `Array` repeats whole arrays. -/
theorem not_forall_parameter_repeats_element :
    ¬ ∀ (registry : EnumRegistry) (p : ParameterDecl) (tag : Option ParamTag) (e : TypeExpr)
      (element : ValueType) (dimensions : Nat), p.rest = true → annotation? p tag = some e →
        e.isMarked = false →
          ValueType.resolve registry .parameter e = .array element dimensions →
            (parameter registry p tag).type.IsElementOf element dimensions := by
  intro h
  have harray : ValueType.resolve .empty .parameter (.named "Array") = .array .any 1 := by
    rw [ValueType.resolve_named]
    rfl
  have hannotation : annotation? { name := "values", type? := some (.named "Array"), rest := true }
      none = some (.named "Array") := rfl
  have htype := parameter_type_of_rest .empty rfl hannotation rfl
  have helement := h .empty _ _ _ _ _ rfl hannotation rfl harray
  rw [htype] at helement
  change (ValueType.resolve .empty .parameter (.named "Array")).IsElementOf _ _ at helement
  rw [harray] at helement
  exact ValueType.not_isElementOf_self _ _ helement

end Candidate

end CustomFunctions
