import CustomFunctions.ValueType.Resolve
import Mathlib.Data.List.Basic

/-!
# What holds of all resolved types

Resolving makes types in a few ways only: it looks a name up, takes the type of a literal, puts a
scalar type into an array or the type of a result into a stream, and refuses. Unions and promises
give back the type of one of their parts. So what holds of the types of names and passes from parts
to the types made of them holds of every resolved type.

## Main definitions

- `ValueType.PassesOn` — a property that passes from parts to the types made of them
- `ValueType.resolve_induction` — such a property holds of every resolved type
-/

namespace CustomFunctions.ValueType

/-- The property of the types at a position holds of the types of names and literals and of refused
types, and passes from the parts of an array or a stream to the whole. -/
structure PassesOn (registry : EnumRegistry) (motive : Position → ValueType → Prop) : Prop where
  name : ∀ position name, motive position (ofName registry position name)
  literal : ∀ position kind, motive position (ofLiteral kind)
  object : ∀ position, motive position .object
  any : ∀ position, motive position .any
  unsupported : ∀ position reason, motive position (.unsupported reason)
  array : ∀ position element depth, motive position element → element.isScalar = true →
    1 ≤ depth → depth ≤ maxDimensions → motive position (.array element depth)
  /-- What a stream delivers is resolved as a result, wherever the stream stands. -/
  stream : ∀ position result, motive .result result →
    motive position (.invocationOf .streaming result)

variable {registry : EnumRegistry} {motive : Position → ValueType → Prop}

namespace PassesOn

theorem ofArray (h : PassesOn registry motive) {position : Position} {resolved : ValueType}
    (hresolved : motive position resolved) (element : TypeExpr) {depth : Nat} (hpos : 1 ≤ depth)
    (hmax : depth ≤ maxDimensions) : motive position (ofArray element depth resolved) := by
  unfold ValueType.ofArray
  split
  · exact hresolved
  · split
    · next hscalar => exact h.array position resolved depth hresolved hscalar hpos hmax
    · exact h.unsupported position _

/-- A union is one of its members, or it is refused or of any type. -/
theorem ofUnion (h : PassesOn registry motive) {position : Position} {resolved : List ValueType}
    (hresolved : ∀ type ∈ resolved, motive position type) :
    motive position (ofUnion resolved) := by
  unfold ValueType.ofUnion
  split
  · exact h.unsupported position _
  · split
    · exact h.unsupported position _
    · split
      · next bad hbad => exact hresolved bad (List.mem_of_find?_eq_some hbad)
      · split
        · exact hresolved _ List.mem_cons_self
        · exact h.any position

end PassesOn

/-- An expression that has an element has an array level. -/
theorem one_le_arrayDepth {e element : TypeExpr} (h : e.element? = some element) :
    1 ≤ e.arrayDepth := by
  rw [TypeExpr.arrayDepth, TypeExpr.core_of_element h]
  exact Nat.le_add_left 1 _

mutual

/-- A property that passes from parts to the types made of them holds of every resolved type. -/
theorem resolve_induction (h : PassesOn registry motive) (position : Position) (e : TypeExpr) :
    motive position (resolve registry position e) := by
  rw [resolve]
  split
  · next element helement =>
    split
    · next hmax =>
      exact h.ofArray (resolve_induction h position e.core.1) _ (one_le_arrayDepth helement) hmax
    · exact h.unsupported position _
  · split
    · exact h.name position _
    · split
      · split
        · exact resolve_induction h .result _
        · exact h.unsupported _ _
      · split
        · exact h.stream position _ (resolve_induction h .result _)
        · exact h.unsupported position _
    · exact h.unsupported position _
    · exact resolve_induction h position _
    · exact h.ofUnion (resolveMembers_induction h position _)
    · exact h.unsupported position _
    · exact h.literal position _
    · exact h.object position
    · exact h.unsupported position _
    · exact resolve_induction h position _
    · exact resolve_induction h position _
    · split <;> exact h.unsupported position _
termination_by sizeOf e
decreasing_by
  · exact TypeExpr.sizeOf_core ‹_›
  all_goals subst_vars
  · exact TypeExpr.sizeOf_argument _ _
  · exact TypeExpr.sizeOf_argument _ _
  · exact TypeExpr.sizeOf_element rfl
  · exact TypeExpr.sizeOf_members _
  · exact TypeExpr.sizeOf_variadic _
  · exact TypeExpr.sizeOf_optional _

theorem resolveMembers_induction (h : PassesOn registry motive) (position : Position)
    (members : List TypeExpr) :
    ∀ type ∈ resolveMembers registry position members, motive position type := by
  cases members with
  | nil => simp [resolveMembers]
  | cons e rest =>
    rw [resolveMembers]
    split
    · exact resolveMembers_induction h position rest
    · exact List.forall_mem_cons.mpr
        ⟨resolve_induction h position e, resolveMembers_induction h position rest⟩
termination_by sizeOf members
decreasing_by
  all_goals subst_vars
  · exact TypeExpr.sizeOf_head _ _
  · exact TypeExpr.sizeOf_tail _ _
  · exact TypeExpr.sizeOf_tail _ _

end

end CustomFunctions.ValueType
