import CustomFunctions.Proofs.ValueType.Unions
import CustomFunctions.Proofs.ValueType.WellFormed
import Mathlib.Data.List.Forall2

/-!
# Spellings of arrays

An array type is written with brackets behind its element or as a reference to `Array` or
`ReadonlyArray`. Which spelling stands at which level of an expression makes no difference to the
type that it resolves to, wherever in the expression the array stands: only the texts that tell why a
type is refused quote the expression as it is written.

## Main definitions

- `TypeExpr.IsRespelled` — expressions that differ in the spelling of array levels only
- `ValueType.withoutReasons` — a type without the texts that tell why parts of it are refused
- `ValueType.resolve_respelled` — the spelling of arrays makes no difference to the type
-/

namespace CustomFunctions

namespace TypeExpr

mutual

/-- The second expression is the first one with array levels written in other spellings, any number
of them and at any depth. -/
inductive IsRespelled : TypeExpr → TypeExpr → Prop
  | around (spelling other : ArraySpelling) {e f : TypeExpr} (h : IsRespelled e f) :
      IsRespelled (spelling.around e) (other.around f)
  | named (name : String) : IsRespelled (.named name) (.named name)
  | generic (name : String) {args others : List TypeExpr} (h : AreRespelled args others) :
      IsRespelled (.generic name args) (.generic name others)
  | union {members others : List TypeExpr} (h : AreRespelled members others) :
      IsRespelled (.union members) (.union others)
  | tuple {members others : List TypeExpr} (h : AreRespelled members others) :
      IsRespelled (.tuple members) (.tuple others)
  | literal (kind : LiteralKind) : IsRespelled (.literal kind) (.literal kind)
  | object : IsRespelled .object .object
  | function : IsRespelled .function .function
  | variadic {e f : TypeExpr} (h : IsRespelled e f) : IsRespelled (.variadic e) (.variadic f)
  | optional {e f : TypeExpr} (h : IsRespelled e f) : IsRespelled (.optional e) (.optional f)
  | invalid (text : String) : IsRespelled (.invalid text) (.invalid text)

/-- The expressions of one list are those of the other in other spellings. -/
inductive AreRespelled : List TypeExpr → List TypeExpr → Prop
  | nil : AreRespelled [] []
  | cons {e f : TypeExpr} {es fs : List TypeExpr} (h : IsRespelled e f) (hs : AreRespelled es fs) :
      AreRespelled (e :: es) (f :: fs)

end

variable {e f : TypeExpr}

/-- In another spelling an array is still an array, and nothing else becomes one. -/
theorem IsRespelled.element_cases (h : IsRespelled e f) :
    (e.element? = none ∧ f.element? = none) ∨
      ∃ x y, e.element? = some x ∧ f.element? = some y ∧ IsRespelled x y := by
  cases h with
  | around spelling other h =>
    exact .inr ⟨_, _, ValueType.element?_around _ _, ValueType.element?_around _ _, h⟩
  | generic name h =>
    cases h with
    | nil => exact .inl ⟨rfl, rfl⟩
    | cons h hs =>
      cases hs with
      | cons => exact .inl ⟨rfl, rfl⟩
      | nil =>
        by_cases hname : isArrayName name = true
        · exact .inr ⟨_, _, if_pos hname, if_pos hname, h⟩
        · exact .inl ⟨if_neg hname, if_neg hname⟩
  | _ => exact .inl ⟨rfl, rfl⟩

/-- In another spelling an array has as many levels, and its innermost element is the same but for
spellings. -/
theorem IsRespelled.core {e f : TypeExpr} (h : IsRespelled e f) :
    e.core.2 = f.core.2 ∧ IsRespelled e.core.1 f.core.1 := by
  rcases h.element_cases with ⟨he, hf⟩ | ⟨x, y, he, hf, hxy⟩
  · rw [core_of_no_element he, core_of_no_element hf]
    exact ⟨rfl, h⟩
  · obtain ⟨hdepth, hcore⟩ := hxy.core
    rw [core_of_element he, core_of_element hf]
    exact ⟨congrArg (· + 1) hdepth, hcore⟩
termination_by sizeOf e
decreasing_by exact sizeOf_element he

theorem IsRespelled.name?_eq (h : IsRespelled e f) : e.name? = f.name? := by
  cases h with
  | around spelling other h => cases spelling <;> cases other <;> rfl
  | _ => rfl

end TypeExpr

namespace ValueType

/-- The type with the reasons of all refusals in it left out. -/
def withoutReasons : ValueType → ValueType
  | unsupported _ => unsupported ""
  | array element dimensions => array element.withoutReasons dimensions
  | invocationOf kind result => invocationOf kind result.withoutReasons
  | type => type

/-- The types are equal, or both are refused, or both are streams of such types. Arrays need no case
of their own, as no array has a refused element. -/
inductive SameButReasons : ValueType → ValueType → Prop
  | refl (t : ValueType) : SameButReasons t t
  | unsupported (reason other : String) : SameButReasons (.unsupported reason) (.unsupported other)
  | stream (kind : InvocationKind) {s t : ValueType} (h : SameButReasons s t) :
      SameButReasons (.invocationOf kind s) (.invocationOf kind t)

namespace SameButReasons

variable {s t : ValueType} {types others : List ValueType}

theorem withoutReasons_eq (h : SameButReasons s t) : s.withoutReasons = t.withoutReasons := by
  induction h with
  | refl => rfl
  | unsupported => rfl
  | stream kind _ ih => rw [withoutReasons, withoutReasons, ih]

theorem of_isUnsupported (hs : s.isUnsupported = true) (ht : t.isUnsupported = true) :
    SameButReasons s t := by
  cases s with
  | unsupported reason =>
    cases t with
    | unsupported other => exact .unsupported reason other
    | _ => cases ht
  | _ => cases hs

theorem fitsUnion_eq (h : SameButReasons s t) : s.fitsUnion = t.fitsUnion := by
  cases h <;> rfl

/-- Types that may be members of a union have no reasons in which they could differ. -/
theorem eq_of_fitsUnion (h : SameButReasons s t) (hfits : s.fitsUnion = true) : s = t := by
  cases h with
  | refl => rfl
  | unsupported => cases hfits
  | stream => cases hfits

theorem ofArray (h : SameButReasons s t) (e f : TypeExpr) (depth : Nat) :
    SameButReasons (ofArray e depth s) (ofArray f depth t) := by
  cases h with
  | refl =>
    unfold ValueType.ofArray
    split
    · exact .refl s
    · split
      · exact .refl _
      · exact .unsupported _ _
  | unsupported reason other => exact .unsupported reason other
  | stream => exact .unsupported _ _

theorem map_fitsUnion (h : List.Forall₂ SameButReasons types others) :
    types.map fitsUnion = others.map fitsUnion := by
  induction h with
  | nil => rfl
  | cons hst _ ih => rw [List.map_cons, List.map_cons, hst.fitsUnion_eq, ih]

/-- A union of such types is refused with the one as with the other; what is not refused is the same
union. -/
theorem ofUnion (h : List.Forall₂ SameButReasons types others) :
    SameButReasons (ofUnion types) (ofUnion others) := by
  by_cases hfits : ∀ s ∈ types, s.fitsUnion = true
  · have heq : types = others := by
      induction h with
      | nil => rfl
      | cons hst _ ih =>
        obtain ⟨hs, hrest⟩ := List.forall_mem_cons.mp hfits
        rw [hst.eq_of_fitsUnion hs, ih hrest]
    rw [heq]
    exact .refl _
  · have hrefused {ts : List ValueType} (hts : false ∈ ts.map fitsUnion) :
        (ValueType.ofUnion ts).isUnsupported = true :=
      ofUnion_of_refused (.inr (List.mem_map.mp hts))
    have hunfit : false ∈ types.map fitsUnion := by
      push Not at hfits
      obtain ⟨s, hs, hunfit⟩ := hfits
      exact List.mem_map.mpr ⟨s, hs, Bool.eq_false_iff.mpr hunfit⟩
    exact of_isUnsupported (hrefused hunfit) (hrefused (map_fitsUnion h ▸ hunfit))

end SameButReasons

variable {registry : EnumRegistry}

-- ════════════════════════════════════════════════════════════════════════
-- Arrays and references
-- ════════════════════════════════════════════════════════════════════════

/-- An array resolves by its innermost element and its number of levels. -/
theorem resolve_of_element {position : Position} {e element : TypeExpr}
    (h : e.element? = some element) :
    resolve registry position e =
      if e.arrayDepth ≤ maxDimensions then
        ofArray e.core.1 e.arrayDepth (resolve registry position e.core.1)
      else
        .unsupported (s!"\"{e.text}\" has {e.arrayDepth} dimensions; "
          ++ s!"at most {maxDimensions} are supported") := by
  rw [resolve]
  split
  · rfl
  · next hnone =>
    rw [h] at hnone
    cases hnone

/-- A reference with one argument that is no array is a promise or a stream, or it is refused. -/
theorem resolve_reference {position : Position} {name : String} {inner : TypeExpr}
    (h : (TypeExpr.generic name [inner]).element? = none) :
    resolve registry position (.generic name [inner]) =
      if name = "Promise" then
        match position with
        | .result => resolve registry .result inner
        | .parameter => .unsupported "promise parameters are not supported"
      else if InvocationKind.ofTypeName? name = some .streaming then
        .invocationOf .streaming (resolve registry .result inner)
      else notSupported (TypeExpr.text (.generic name [inner])) := by
  rw [resolve]
  split
  · next hsome =>
    rw [h] at hsome
    cases hsome
  · rfl

theorem resolve_arguments (registry : EnumRegistry) (position : Position) (name : String)
    (x y : TypeExpr) (rest : List TypeExpr) :
    (resolve registry position (.generic name (x :: y :: rest))).isUnsupported = true := by
  rw [resolve]
  rfl

theorem resolve_tuple (registry : EnumRegistry) (position : Position) (members : List TypeExpr) :
    (resolve registry position (.tuple members)).isUnsupported = true := by
  rw [resolve]
  rfl

-- ════════════════════════════════════════════════════════════════════════
-- Respelled expressions
-- ════════════════════════════════════════════════════════════════════════

open TypeExpr

mutual

/-- What an expression without an array level at its head resolves to depends on its parts. -/
theorem resolve_parts_sameButReasons (registry : EnumRegistry) (position : Position) {e f : TypeExpr}
    (h : IsRespelled e f) (he : e.element? = none) (hf : f.element? = none) :
    SameButReasons (resolve registry position e) (resolve registry position f) := by
  cases h with
  | around spelling =>
    rw [element?_around] at he
    cases he
  | named name => exact .refl _
  | generic name h =>
    cases h with
    | nil => exact .refl _
    | cons h hs =>
      cases hs with
      | cons => exact .of_isUnsupported (resolve_arguments ..) (resolve_arguments ..)
      | nil =>
        have ih := resolve_sameButReasons registry .result h
        rw [resolve_reference he, resolve_reference hf]
        split
        · cases position with
          | result => exact ih
          | parameter => exact .refl _
        · split
          · exact .stream _ ih
          · exact .unsupported _ _
  | union h =>
    rw [resolve_union, resolve_union]
    exact .ofUnion (resolveMembers_sameButReasons registry position h)
  | tuple h => exact .of_isUnsupported (resolve_tuple ..) (resolve_tuple ..)
  | literal kind => exact .refl _
  | object => exact .refl _
  | function => exact .refl _
  | variadic h =>
    rw [resolve_variadic, resolve_variadic]
    exact resolve_sameButReasons registry position h
  | optional h =>
    rw [resolve_optional, resolve_optional]
    exact resolve_sameButReasons registry position h
  | invalid text => exact .refl _
termination_by (sizeOf e, 0)
decreasing_by
  all_goals subst_vars
  · exact Prod.Lex.left _ _ (sizeOf_argument _ _)
  · exact Prod.Lex.left _ _ (sizeOf_members _)
  · exact Prod.Lex.left _ _ (sizeOf_variadic _)
  · exact Prod.Lex.left _ _ (sizeOf_optional _)

theorem resolve_sameButReasons (registry : EnumRegistry) (position : Position) {e f : TypeExpr}
    (h : IsRespelled e f) :
    SameButReasons (resolve registry position e) (resolve registry position f) := by
  rcases h.element_cases with ⟨he, hf⟩ | ⟨x, y, he, hf, _⟩
  · exact resolve_parts_sameButReasons registry position h he hf
  · obtain ⟨hdepth, hcore⟩ := h.core
    rw [resolve_of_element he, resolve_of_element hf, arrayDepth, arrayDepth, hdepth]
    split
    · exact (resolve_sameButReasons registry position hcore).ofArray _ _ _
    · exact .unsupported _ _
termination_by (sizeOf e, 1)
decreasing_by
  · exact Prod.Lex.right _ (by decide)
  · exact Prod.Lex.left _ _ (sizeOf_core he)

theorem resolveMembers_sameButReasons (registry : EnumRegistry) (position : Position)
    {members others : List TypeExpr} (h : AreRespelled members others) :
    List.Forall₂ SameButReasons (resolveMembers registry position members)
      (resolveMembers registry position others) := by
  cases h with
  | nil =>
    rw [resolveMembers]
    exact .nil
  | cons h hs =>
    have hrest := resolveMembers_sameButReasons registry position hs
    rw [resolveMembers, resolveMembers, isNullish, isNullish, h.name?_eq]
    split
    · exact hrest
    · exact .cons (resolve_sameButReasons registry position h) hrest
termination_by (sizeOf members, 0)
decreasing_by
  all_goals subst_vars
  · exact Prod.Lex.left _ _ (sizeOf_tail _ _)
  · exact Prod.Lex.left _ _ (sizeOf_head _ _)

end

/-- Array levels written in other spellings make no difference to the type, but for the reasons of
refusals in it. -/
theorem resolve_respelled (registry : EnumRegistry) (position : Position) {e f : TypeExpr}
    (h : IsRespelled e f) :
    (resolve registry position e).withoutReasons = (resolve registry position f).withoutReasons :=
  (resolve_sameButReasons registry position h).withoutReasons_eq

/-- A stream of arrays with too many levels is refused in both spellings. -/
theorem resolve_respelled_cube :
    IsRespelled
        (.generic "StreamingInvocation" [.array (.array (.array (.named "number")))])
        (.generic "StreamingInvocation"
          [.generic "Array" [.array (.generic "ReadonlyArray" [.named "number"])]]) ∧
      (resolve .empty .parameter
        (.generic "StreamingInvocation" [.array (.array (.array (.named "number")))])).withoutReasons =
      (resolve .empty .parameter
        (.generic "StreamingInvocation"
          [.generic "Array" [.array (.generic "ReadonlyArray" [.named "number"])]])).withoutReasons := by
  have hcube : IsRespelled (.array (.array (.array (.named "number"))))
      (.generic "Array" [.array (.generic "ReadonlyArray" [.named "number"])]) :=
    .around .brackets .array <| .around .brackets .brackets <|
      .around .brackets .readonlyArray (.named "number")
  have hstream := IsRespelled.generic "StreamingInvocation" (.cons hcube .nil)
  exact ⟨hstream, resolve_respelled .empty .parameter hstream⟩

end ValueType

end CustomFunctions
