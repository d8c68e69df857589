import CustomFunctions.Proofs.CustomEnum.Rules
import CustomFunctions.Proofs.ValueType.Enums
import CustomFunctions.Proofs.ValueType.Invocations

/-!
# Looking up custom enums

A look-up finds a declared enum exactly if the first declaration that has its name in any letter case
spells it the same way. Valid enums are always found, but one that is rejected because an earlier
name differs from its own in letter case only is looked up like a name that no enum has.

## Main definitions

- `SourceUnit.IsFirstSpelling` — the first declaration of the name in any letter case spells it so
- `ValueType.builtInNames` — the names that stand for no enum
- `SourceUnit.lookup_tells_invalid_iff` — what a look-up and a type of that name tell
-/

namespace CustomFunctions

/-- The name is in the list, and none before it is the same up to letter case. -/
def IsFirstSpelling (names : List String) (name : String) : Prop :=
  ∃ before after, names = before ++ name :: after ∧
    ∀ other ∈ before, Text.lowerCase other ≠ Text.lowerCase name

namespace EnumRegistry

variable {registry : EnumRegistry} {name : String}

theorem find?_eq_some_iff {entry : RegisteredEnum} :
    registry.find? name = some entry ↔
      entry.name = name ∧ ∃ before after, registry.entries = before ++ entry :: after ∧
        ∀ other ∈ before, Text.lowerCase other.name ≠ Text.lowerCase name := by
  rw [find?, Option.filter_eq_some_iff, List.find?_eq_some_iff_append]
  simp only [decide_eq_true_eq, Bool.not_eq_true', decide_eq_false_iff_not]
  constructor
  · rintro ⟨⟨_, hsplit⟩, hname⟩
    exact ⟨hname, hsplit⟩
  · rintro ⟨hname, hsplit⟩
    exact ⟨⟨congrArg Text.lowerCase hname, hsplit⟩, hname⟩

theorem find?_isSome_iff :
    (registry.find? name).isSome = true ↔
      IsFirstSpelling (registry.entries.map (·.name)) name := by
  rw [Option.isSome_iff_exists]
  constructor
  · rintro ⟨entry, hentry⟩
    obtain ⟨rfl, before, after, hsplit, hfirst⟩ := find?_eq_some_iff.mp hentry
    refine ⟨before.map (·.name), after.map (·.name), by simp [hsplit], ?_⟩
    rw [List.forall_mem_map]
    exact hfirst
  · rintro ⟨names, more, hsplit, hfirst⟩
    obtain ⟨before, rest, hentries, rfl, hrest⟩ := List.map_eq_append_iff.mp hsplit
    obtain ⟨entry, after, rfl, hname, rfl⟩ := List.map_eq_cons_iff.mp hrest
    rw [List.forall_mem_map] at hfirst
    exact ⟨entry, find?_eq_some_iff.mpr ⟨hname, before, after, hentries, hfirst⟩⟩

theorem scan_names (unit : SourceUnit) :
    (scan unit).1.entries.map (·.name) = unit.taggedEnums.map (·.name) := by
  rw [SourceUnit.scan_eq, ← SourceUnit.registrations_decls]
  exact SourceUnit.registrations_names fun _ hr => hr

/-- A valid enum is found under its name: no earlier declaration has it in any letter case. -/
theorem find?_of_mem_valid {unit : SourceUnit} {desc : CustomEnum}
    (h : desc ∈ (scan unit).1.valid) :
    (scan unit).1.find? desc.name = some (.valid desc) := by
  rw [SourceUnit.scan_eq] at h ⊢
  obtain ⟨entry, hentry, hvalid⟩ := List.mem_filterMap.mp h
  obtain ⟨r, hr, rfl⟩ := List.mem_map.mp hentry
  obtain ⟨before, after, hsplit⟩ := List.append_of_mem hr
  have hsound := registrations_isSound .empty unit.enums before r after hsplit
  have hfresh := (claims_eq_false _ _).mp (hsound.fresh (by rw [hvalid]; rfl))
  have hdesc : r.entry = .valid desc := by
    cases hr : r.entry with
    | valid _ =>
      rw [hr] at hvalid
      exact congrArg RegisteredEnum.valid (Option.some.inj hvalid)
    | invalid _ _ =>
      rw [hr] at hvalid
      exact nomatch hvalid
  have hname : desc.name = r.decl.name := by
    rw [← hsound.name_eq, hdesc]
    rfl
  refine find?_eq_some_iff.mpr ⟨rfl, before.map (·.entry), after.map (·.entry), ?_, ?_⟩
  · rw [hsplit, List.map_append, List.map_cons, hdesc]
  · rw [hname]
    exact fun other hother => hfresh other (List.mem_append_right _ hother)

theorem exists_find?_valid_iff (unit : SourceUnit) (name : String) :
    (∃ desc, (scan unit).1.find? name = some (.valid desc)) ↔
      ∃ desc ∈ (scan unit).1.valid, desc.name = name := by
  constructor
  · rintro ⟨desc, hfind⟩
    exact ⟨desc, mem_valid_of_find? hfind, (find?_eq_some_iff.mp hfind).1⟩
  · rintro ⟨desc, hdesc, rfl⟩
    exact ⟨desc, find?_of_mem_valid hdesc⟩

end EnumRegistry

-- ════════════════════════════════════════════════════════════════════════
-- Types of that name
-- ════════════════════════════════════════════════════════════════════════

namespace ValueType

/-- The words of the language that stand for types. -/
def keywords : List String :=
  ["number", "Number", "string", "String", "boolean", "Boolean", "any", "unknown", "object",
    "Object", "Array", "void", "undefined", "null", "never"]

/-- The names of invocations, with and without the namespace of the host. -/
def invocationNames : List String :=
  ["Invocation", "CancelableInvocation", "StreamingInvocation"].flatMap fun name =>
    [name, "CustomFunctions." ++ name]

/-- The names of rich cell values, with and without the namespace of the host. -/
def cellValueNames : List String :=
  CellValueKind.all.flatMap fun kind => [kind.typeName, "Excel." ++ kind.typeName]

/-- The names that stand for no enum, even if one is declared. -/
def builtInNames : List String :=
  keywords ++ invocationNames ++ cellValueNames

variable {name : String}

theorem ofKeyword?_eq_none_iff : ofKeyword? name = none ↔ name ∉ keywords := by
  simp only [ofKeyword?, keywords, List.mem_cons, List.not_mem_nil, or_false]
  grind

theorem ofInvocationName_eq_none_iff :
    InvocationKind.ofTypeName? name = none ↔ name ∉ invocationNames := by
  simp only [InvocationKind.ofTypeName?, InvocationKind.typeName, invocationNames]
  grind

theorem ofCellValueName_eq_none_iff :
    CellValueKind.ofTypeName? name = none ↔ name ∉ cellValueNames := by
  simp [CellValueKind.ofTypeName?, cellValueNames]

/-- Any other name stands for the enum that a look-up finds. -/
theorem ofName_of_not_builtIn (h : name ∉ builtInNames) (registry : EnumRegistry)
    (position : Position) : ofName registry position name = ofEnum name (registry.find? name) := by
  simp only [builtInNames, List.mem_append, not_or] at h
  rw [ofName, ofKeyword?_eq_none_iff.mpr h.1.1, ofInvocationName_eq_none_iff.mpr h.1.2,
    ofCellValueName_eq_none_iff.mpr h.2]

end ValueType

namespace SourceUnit

/-- The name of a tagged enum, if the first one with the name in any letter case has this spelling. -/
def IsFirstSpelling (unit : SourceUnit) (name : String) : Prop :=
  CustomFunctions.IsFirstSpelling (unit.taggedEnums.map (·.name)) name

/-- A look-up finds the names that are first of their spellings, and among them exactly the valid
enums as valid. The name of a rejected enum is a type that says so if it is found, and otherwise one
like that of a name that no enum has. -/
theorem lookup_tells_invalid_iff (unit : SourceUnit) (name : String) :
    let registry := (EnumRegistry.scan unit).1
    ((registry.find? name).isSome = true ↔ unit.IsFirstSpelling name) ∧
      ((∃ desc, registry.find? name = some (.valid desc)) ↔
        ∃ desc ∈ registry.valid, desc.name = name) ∧
      (name ∉ ValueType.builtInNames → (∀ desc ∈ registry.valid, desc.name ≠ name) →
        ∀ position,
          (unit.IsFirstSpelling name → ValueType.resolve registry position (.named name) =
            .unsupported s!"custom enum \"{name}\" is invalid") ∧
          (¬ unit.IsFirstSpelling name → ValueType.resolve registry position (.named name) =
            ValueType.notSupported name)) := by
  intro registry
  have hfound : (registry.find? name).isSome = true ↔ unit.IsFirstSpelling name := by
    rw [EnumRegistry.find?_isSome_iff, EnumRegistry.scan_names]
    rfl
  have hvalid := EnumRegistry.exists_find?_valid_iff unit name
  refine ⟨hfound, hvalid, fun hname hrejected position => ?_⟩
  rw [ValueType.resolve_named, ValueType.ofName_of_not_builtIn hname, ← hfound]
  cases hfind : registry.find? name with
  | none => exact ⟨fun hsome => absurd hsome (by simp), fun _ => rfl⟩
  | some entry =>
    refine ⟨fun _ => ?_, fun hnone => absurd rfl hnone⟩
    cases entry with
    | valid desc =>
      obtain ⟨desc, hdesc, heq⟩ := hvalid.mp ⟨desc, hfind⟩
      exact absurd heq (hrejected desc hdesc)
    | invalid _ _ => rfl

/-- A file with a valid enum, an enum whose name differs from it in letter case only, and an enum
without members. -/
def rejectedEnums : SourceUnit where
  path := "enums.ts"
  language := .typeScript
  functions := []
  enums := [
    { name := "Color"
      doc := some ⟨["@customenum"], 1⟩
      members := [⟨"Red", some (.number ⟨0⟩), none⟩]
      line := 2 },
    { name := "COLOR"
      doc := some ⟨["@customenum"], 4⟩
      members := [⟨"Red", some (.string "red"), none⟩]
      line := 5 },
    { name := "Shape"
      doc := some ⟨["@customenum"], 7⟩
      members := []
      line := 8 }]

/-- Of the rejected enums one is called invalid, the other is not. -/
theorem lookup_tells_invalid_shape :
    ValueType.resolve (EnumRegistry.scan rejectedEnums).1 .parameter (.named "Shape") =
        .unsupported "custom enum \"Shape\" is invalid" ∧
      ValueType.resolve (EnumRegistry.scan rejectedEnums).1 .parameter (.named "COLOR") =
        ValueType.notSupported "COLOR" := by
  have hrejected : ∀ desc ∈ (EnumRegistry.scan rejectedEnums).1.valid,
      desc.name ≠ "Shape" ∧ desc.name ≠ "COLOR" := by
    decide +kernel
  constructor
  · obtain ⟨hfound, _, htype⟩ := lookup_tells_invalid_iff rejectedEnums "Shape"
    have hfirst : rejectedEnums.IsFirstSpelling "Shape" := hfound.mp (by decide +kernel)
    exact (htype (by decide) (fun desc hdesc => (hrejected desc hdesc).1) .parameter).1 hfirst
  · obtain ⟨hfound, _, htype⟩ := lookup_tells_invalid_iff rejectedEnums "COLOR"
    have hlater : ¬ rejectedEnums.IsFirstSpelling "COLOR" := mt hfound.mpr (by decide +kernel)
    exact (htype (by decide) (fun desc hdesc => (hrejected desc hdesc).2) .parameter).2 hlater

/-- The later of two spellings is rejected, and a look-up does not find it. -/
theorem not_forall_tagged_found :
    ¬ ∀ (unit : SourceUnit), ∀ decl ∈ unit.taggedEnums,
      ((EnumRegistry.scan unit).1.find? decl.name).isSome = true := by
  intro h
  have hfile := h rejectedEnums
  revert hfile
  decide +kernel

end SourceUnit

end CustomFunctions
