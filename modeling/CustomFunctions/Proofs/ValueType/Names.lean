import CustomFunctions.Proofs.ValueType.Spellings

/-!
# Names in type expressions

Resolving looks up the names that an expression writes, at any depth, and no others. So two registries
that know the same about these names resolve the expression to the same type.

## Main definitions

- `TypeExpr.names` — the names of the plain references in an expression
- `EnumRegistry.AgreesOn` — registries that know the same about some names
- `ValueType.resolve_of_agreesOn` — the type depends on what is known about the names written
-/

namespace CustomFunctions

namespace TypeExpr

mutual

/-- The names of the plain references in an expression, at any depth. -/
def names : TypeExpr → List String
  | named name => [name]
  | generic _ args => namesOfEach args
  | array element => element.names
  | union members => namesOfEach members
  | tuple members => namesOfEach members
  | variadic inner => inner.names
  | optional inner => inner.names
  | _ => []

/-- The names in each of the expressions. -/
def namesOfEach : List TypeExpr → List String
  | [] => []
  | e :: rest => e.names ++ namesOfEach rest

end

theorem names_argument (name : String) (inner : TypeExpr) :
    (generic name [inner]).names = inner.names := by
  rw [names, namesOfEach, namesOfEach, List.append_nil]

/-- An array has the names of its element. -/
theorem names_of_element {e element : TypeExpr} (h : e.element? = some element) :
    element.names = e.names := by
  unfold element? at h
  split at h
  · obtain rfl := Option.some.inj h
    rw [names]
  · obtain ⟨_, hsome⟩ := Option.ite_none_right_eq_some.mp h
    obtain rfl := Option.some.inj hsome
    rw [names_argument]
  · cases h

theorem names_core (e : TypeExpr) : e.core.1.names = e.names := by
  cases helement : e.element? with
  | none => rw [core_of_no_element helement]
  | some element =>
    have ih := names_core element
    rw [core_of_element helement, ih, names_of_element helement]
termination_by sizeOf e
decreasing_by exact sizeOf_element helement

end TypeExpr

/-- The registries know the same about each of the names. -/
def EnumRegistry.AgreesOn (registry other : EnumRegistry) (names : List String) : Prop :=
  ∀ name ∈ names, other.find? name = registry.find? name

theorem EnumRegistry.AgreesOn.mono {registry other : EnumRegistry} {names more : List String}
    (h : registry.AgreesOn other more) (hsub : names ⊆ more) : registry.AgreesOn other names := by
  intro name hname
  exact h name (hsub hname)

namespace ValueType

variable {registry other : EnumRegistry}

theorem ofName_of_agreesOn (position : Position) {name : String}
    (h : other.find? name = registry.find? name) :
    ofName other position name = ofName registry position name := by
  rw [ofName, ofName, h]

mutual

/-- An expression resolves to the same type with registries that know the same about its names. -/
theorem resolve_of_agreesOn (position : Position) (e : TypeExpr) (h : registry.AgreesOn other e.names) :
    resolve other position e = resolve registry position e := by
  cases helement : e.element? with
  | some element =>
    have hcore := resolve_of_agreesOn position e.core.1 (e.names_core.symm ▸ h)
    rw [resolve_of_element helement, resolve_of_element helement, hcore]
  | none =>
    cases e with
    | named name =>
      rw [resolve_named, resolve_named]
      exact ofName_of_agreesOn position (h name (List.mem_singleton_self name))
    | generic name args =>
      cases args with
      | nil =>
        rw [resolve.eq_def other, resolve.eq_def registry]
        rfl
      | cons inner rest =>
        cases rest with
        | nil =>
          have hinner := resolve_of_agreesOn .result inner (TypeExpr.names_argument name inner ▸ h)
          rw [resolve_reference helement, resolve_reference helement, hinner]
        | cons =>
          rw [resolve.eq_def other, resolve.eq_def registry]
          rfl
    | array element => cases helement
    | union members =>
      rw [resolve_union, resolve_union, resolveMembers_of_agreesOn position members h]
    | variadic inner =>
      rw [resolve_variadic, resolve_variadic]
      exact resolve_of_agreesOn position inner h
    | optional inner =>
      rw [resolve_optional, resolve_optional]
      exact resolve_of_agreesOn position inner h
    | tuple | literal | object | function | invalid =>
      rw [resolve.eq_def other, resolve.eq_def registry]
      rfl
termination_by sizeOf e
decreasing_by
  all_goals subst_vars
  · exact TypeExpr.sizeOf_argument _ _
  · exact TypeExpr.sizeOf_members _
  · exact TypeExpr.sizeOf_variadic _
  · exact TypeExpr.sizeOf_optional _
  · exact TypeExpr.sizeOf_core helement

theorem resolveMembers_of_agreesOn (position : Position) (members : List TypeExpr)
    (h : registry.AgreesOn other (TypeExpr.namesOfEach members)) :
    resolveMembers other position members = resolveMembers registry position members := by
  cases members with
  | nil => rw [resolveMembers, resolveMembers]
  | cons e rest =>
    have hhead := resolve_of_agreesOn position e (h.mono (List.subset_append_left _ _))
    have htail := resolveMembers_of_agreesOn position rest (h.mono (List.subset_append_right _ _))
    rw [resolveMembers, resolveMembers, hhead, htail]
termination_by sizeOf members
decreasing_by
  all_goals subst_vars
  · exact TypeExpr.sizeOf_head _ _
  · exact TypeExpr.sizeOf_tail _ _

end

end ValueType

end CustomFunctions
