import CustomFunctions.ValueType.Resolve
import Mathlib.Data.List.Basic

/-!
# Invocations among resolved types

A type expression resolves to an invocation exactly if it names one, behind the marks that tags may
carry and, in a result, behind promises. Arrays and unions take no invocation in, so a resolved type
that is no invocation mentions none at any depth.

## Main definitions

- `TypeExpr.invocation?` — the invocation that an expression names
- `ValueType.mentionsInvocation` — the type is an invocation or contains one
- `ValueType.resolve_of_invocation?`, `ValueType.resolve_of_no_invocation` — what an expression
  resolves to, by whether it names an invocation
-/

namespace CustomFunctions

/-- The kind and the type argument of the invocation that an expression names at a position. -/
def TypeExpr.invocation? (position : Position) :
    TypeExpr → Option (InvocationKind × Option TypeExpr)
  | .named name => (InvocationKind.ofTypeName? name).map fun kind => (kind, none)
  | .generic name [inner] =>
    if name = "Promise" then
      if position = .result then inner.invocation? position else none
    else if InvocationKind.ofTypeName? name = some .streaming then some (.streaming, some inner)
    else none
  | .variadic inner => inner.invocation? position
  | .optional inner => inner.invocation? position
  | _ => none

/-- The type argument of the stream that an expression names for a parameter, if it names one. -/
def TypeExpr.streamArgument? (e : TypeExpr) : Option (Option TypeExpr) :=
  match e.invocation? .parameter with
  | some (.streaming, argument) => some argument
  | _ => none

theorem InvocationKind.ofTypeName?_eq_streaming {name : String}
    (h : ofTypeName? name = some streaming) :
    name = "StreamingInvocation" ∨ name = streaming.typeName := by
  unfold ofTypeName? at h
  split at h
  · exact nomatch h
  · split at h
    · exact nomatch h
    · split at h
      · assumption
      · exact nomatch h

namespace ValueType

/-- Is the type an invocation, or does it contain one at any depth? -/
def mentionsInvocation : ValueType → Bool
  | invocation _ => true
  | invocationOf _ _ => true
  | array element _ => element.mentionsInvocation
  | _ => false

/-- The type of an invocation of the host with its type argument. -/
def ofInvocation (registry : EnumRegistry) : InvocationKind × Option TypeExpr → ValueType
  | (kind, none) => .invocation kind
  | (kind, some argument) => .invocationOf kind (resolve registry .result argument)

variable (registry : EnumRegistry) (position : Position)

theorem invocationKind?_ofInvocation (found : InvocationKind × Option TypeExpr) :
    (ofInvocation registry found).invocationKind? = some found.1 := by
  obtain ⟨kind, argument⟩ := found
  cases argument <;> rfl

theorem mentionsInvocation_of_kind {type : ValueType} (h : type.invocationKind?.isSome = true) :
    type.mentionsInvocation = true := by
  cases type <;> first | rfl | exact nomatch h

-- ════════════════════════════════════════════════════════════════════════
-- Expressions that name an invocation
-- ════════════════════════════════════════════════════════════════════════

theorem resolve_named (name : String) :
    resolve registry position (.named name) = ofName registry position name := by
  rw [resolve]
  rfl

theorem resolve_variadic (inner : TypeExpr) :
    resolve registry position (.variadic inner) = resolve registry position inner := by
  rw [resolve]
  rfl

theorem resolve_optional (inner : TypeExpr) :
    resolve registry position (.optional inner) = resolve registry position inner := by
  rw [resolve]
  rfl

theorem resolve_promise (hposition : position = .result) (inner : TypeExpr) :
    resolve registry position (.generic "Promise" [inner]) = resolve registry position inner := by
  subst hposition
  rw [resolve]
  rfl

/-- The names of invocations are no words of the language. -/
theorem ofName_of_invocation {name : String} {kind : InvocationKind}
    (h : InvocationKind.ofTypeName? name = some kind) :
    ofName registry position name = .invocation kind := by
  have hkeyword : ofKeyword? name = none := by
    unfold InvocationKind.ofTypeName? at h
    split at h
    · next hname => rcases hname with rfl | rfl <;> rfl
    · split at h
      · next hname => rcases hname with rfl | rfl <;> rfl
      · split at h
        · next hname => rcases hname with rfl | rfl <;> rfl
        · exact nomatch h
  rw [ofName, hkeyword, h]

/-- An expression that names an invocation resolves to it, with its type argument resolved as that of
a result. -/
theorem resolve_of_invocation? {e : TypeExpr} {found : InvocationKind × Option TypeExpr}
    (h : e.invocation? position = some found) :
    resolve registry position e = ofInvocation registry found := by
  fun_induction TypeExpr.invocation? position e with
  | case1 name =>
    obtain ⟨kind, hkind, rfl⟩ := Option.map_eq_some_iff.mp h
    rw [resolve_named, ofName_of_invocation registry position hkind]
    rfl
  | case2 inner hposition ih =>
    rw [resolve_promise registry position hposition]
    exact ih h
  | case3 => exact nomatch h
  | case4 name inner _ hname =>
    obtain rfl := Option.some.inj h
    rcases InvocationKind.ofTypeName?_eq_streaming hname with rfl | rfl <;> (rw [resolve]; rfl)
  | case5 => exact nomatch h
  | case6 inner ih =>
    rw [resolve_variadic]
    exact ih h
  | case7 inner ih =>
    rw [resolve_optional]
    exact ih h
  | case8 => exact nomatch h

-- ════════════════════════════════════════════════════════════════════════
-- Expressions that name none
-- ════════════════════════════════════════════════════════════════════════

theorem ofKeyword?_mentionsInvocation {name : String} {type : ValueType}
    (h : ofKeyword? name = some type) : type.mentionsInvocation = false := by
  unfold ofKeyword? at h
  repeat' split at h
  all_goals first | (cases h; rfl) | cases h

theorem ofEnum_mentionsInvocation (name : String) (found : Option RegisteredEnum) :
    (ofEnum name found).mentionsInvocation = false := by
  cases found with
  | none => rfl
  | some entry => cases entry <;> rfl

theorem ofName_mentionsInvocation {name : String} (h : InvocationKind.ofTypeName? name = none) :
    (ofName registry position name).mentionsInvocation = false := by
  unfold ofName
  split
  · next hkeyword => exact ofKeyword?_mentionsInvocation hkeyword
  · rw [h]
    dsimp only
    split
    · split <;> rfl
    · exact ofEnum_mentionsInvocation name _

/-- The element of an array is scalar, so it is no invocation. -/
theorem ofArray_mentionsInvocation (element : TypeExpr) (depth : Nat) (resolved : ValueType) :
    (ofArray element depth resolved).mentionsInvocation = false := by
  unfold ofArray
  cases resolved <;> rfl

theorem resolve_array_mentionsInvocation {e element : TypeExpr} (h : e.element? = some element) :
    (resolve registry position e).mentionsInvocation = false := by
  rw [resolve]
  split
  · split
    · exact ofArray_mentionsInvocation _ _ _
    · rfl
  · next hnone =>
    rw [h] at hnone
    cases hnone

theorem resolve_promise_mentionsInvocation (hposition : position ≠ .result) (inner : TypeExpr) :
    (resolve registry position (.generic "Promise" [inner])).mentionsInvocation = false := by
  cases position with
  | parameter => rw [resolve]; rfl
  | result => exact absurd rfl hposition

/-- A type with an argument that is neither a promise nor a stream is an array or not supported. -/
theorem resolve_generic_mentionsInvocation {name : String} (hpromise : name ≠ "Promise")
    (hstream : InvocationKind.ofTypeName? name ≠ some .streaming) (inner : TypeExpr) :
    (resolve registry position (.generic name [inner])).mentionsInvocation = false := by
  cases helement : (TypeExpr.generic name [inner]).element? with
  | some element => exact resolve_array_mentionsInvocation registry position helement
  | none =>
    rw [resolve]
    split
    · next hsome =>
      rw [helement] at hsome
      cases hsome
    · dsimp only
      rw [if_neg hpromise, if_neg hstream]
      rfl

/-- A union has no member that is an invocation. -/
theorem ofUnion_mentionsInvocation {resolved : List ValueType}
    (h : ∀ type ∈ resolved, type.invocationKind? = none → type.mentionsInvocation = false) :
    (ofUnion resolved).mentionsInvocation = false := by
  unfold ofUnion
  split
  · rfl
  next first rest =>
  split
  · rfl
  next hnone =>
  have hmembers : ∀ type ∈ first :: rest, type.mentionsInvocation = false := by
    intro type htype
    refine h type htype ?_
    simpa using List.find?_eq_none.mp hnone type htype
  split
  · next bad hbad => exact hmembers bad (List.mem_of_find?_eq_some hbad)
  · split
    · exact hmembers first List.mem_cons_self
    · rfl

mutual

/-- An expression that names no invocation resolves to a type that mentions none. -/
theorem resolve_of_no_invocation (e : TypeExpr) (h : e.invocation? position = none) :
    (resolve registry position e).mentionsInvocation = false := by
  cases e with
  | named name =>
    rw [resolve_named]
    exact ofName_mentionsInvocation registry position (Option.map_eq_none_iff.mp h)
  | generic name args =>
    cases args with
    | nil => rw [resolve]; rfl
    | cons inner rest =>
      cases rest with
      | cons => rw [resolve]; rfl
      | nil =>
        rw [TypeExpr.invocation?] at h
        split at h
        · next hpromise =>
          subst hpromise
          split at h
          · next hposition =>
            rw [resolve_promise registry position hposition]
            exact resolve_of_no_invocation inner h
          · next hposition =>
            exact resolve_promise_mentionsInvocation registry position hposition inner
        · next hpromise =>
          split at h
          · exact nomatch h
          · next hstream =>
            exact resolve_generic_mentionsInvocation registry position hpromise hstream inner
  | array element => exact resolve_array_mentionsInvocation registry position rfl
  | union members =>
    rw [resolve]
    exact ofUnion_mentionsInvocation (resolveMembers_mentionsInvocation members)
  | tuple members => rw [resolve]; rfl
  | literal kind => rw [resolve]; cases kind <;> rfl
  | object => rw [resolve]; rfl
  | function => rw [resolve]; rfl
  | variadic inner =>
    rw [resolve_variadic]
    exact resolve_of_no_invocation inner h
  | optional inner =>
    rw [resolve_optional]
    exact resolve_of_no_invocation inner h
  | invalid text =>
    rw [resolve]
    dsimp only [TypeExpr.element?]
    split <;> rfl
termination_by sizeOf e
decreasing_by
  all_goals subst_vars
  · exact TypeExpr.sizeOf_argument _ _
  · exact TypeExpr.sizeOf_members _
  · exact TypeExpr.sizeOf_variadic _
  · exact TypeExpr.sizeOf_optional _

theorem resolveMembers_mentionsInvocation (members : List TypeExpr) :
    ∀ type ∈ resolveMembers registry position members,
      type.invocationKind? = none → type.mentionsInvocation = false := by
  cases members with
  | nil => simp [resolveMembers]
  | cons e rest =>
    rw [resolveMembers]
    split
    · exact resolveMembers_mentionsInvocation rest
    · refine List.forall_mem_cons.mpr ⟨fun hkind => ?_, resolveMembers_mentionsInvocation rest⟩
      cases he : e.invocation? position with
      | none => exact resolve_of_no_invocation e he
      | some found =>
        rw [resolve_of_invocation? registry position he, invocationKind?_ofInvocation] at hkind
        exact nomatch hkind
termination_by sizeOf members
decreasing_by
  all_goals subst_vars
  · exact TypeExpr.sizeOf_head _ _
  · exact TypeExpr.sizeOf_tail _ _
  · exact TypeExpr.sizeOf_tail _ _

end

/-- A resolved type mentions an invocation exactly if its expression names one. -/
theorem resolve_mentionsInvocation_iff (e : TypeExpr) :
    (resolve registry position e).mentionsInvocation = true ↔
      (e.invocation? position).isSome = true := by
  cases he : e.invocation? position with
  | none => simp [resolve_of_no_invocation registry position e he]
  | some found =>
    have hkind := invocationKind?_ofInvocation registry found
    rw [resolve_of_invocation? registry position he]
    exact iff_of_true (mentionsInvocation_of_kind (by rw [hkind]; rfl)) rfl

/-- A resolved type that is no invocation mentions none. -/
theorem resolve_mentionsInvocation_of_kind {e : TypeExpr}
    (h : (resolve registry position e).invocationKind? = none) :
    (resolve registry position e).mentionsInvocation = false := by
  cases he : e.invocation? position with
  | none => exact resolve_of_no_invocation registry position e he
  | some found =>
    rw [resolve_of_invocation? registry position he, invocationKind?_ofInvocation] at h
    exact nomatch h

theorem ofHints_mentionsInvocation (hints : List ReturnHint) :
    (ofHints hints).mentionsInvocation = false := by
  unfold ofHints
  repeat' split
  all_goals rfl

end ValueType

end CustomFunctions
