import CustomFunctions.Proofs.Signature.Candidate
import CustomFunctions.Proofs.ValueType.Resolution

/-!
# The enums of resolved types

A type is resolved with the enums of one file, so every enum that it mentions, at any depth, is a
valid enum of that file, with the base type that it has there.

## Main definitions

- `ValueType.EnumsIn` — all enums of a type are valid enums of a registry
- `ValueType.resolve_enumsIn` — so they are for every resolved type
- `Candidate.ofDecl?_enumsIn` — and for every signature
-/

namespace CustomFunctions

/-- The entry that a look-up finds as valid is one of the valid enums. -/
theorem EnumRegistry.mem_valid_of_find? {registry : EnumRegistry} {name : String}
    {desc : CustomEnum} (h : registry.find? name = some (.valid desc)) : desc ∈ registry.valid := by
  obtain ⟨hfind, _⟩ := Option.filter_eq_some_iff.mp h
  exact List.mem_filterMap.mpr ⟨_, List.mem_of_find?_eq_some hfind, rfl⟩

namespace ValueType

/-- Every enum that the type mentions is a valid enum of the registry. -/
def EnumsIn (registry : EnumRegistry) : ValueType → Prop
  | enum name base => ∃ desc ∈ registry.valid, desc.name = name ∧ desc.base = base
  | array element _ => element.EnumsIn registry
  | invocationOf _ result => result.EnumsIn registry
  | _ => True

variable (registry : EnumRegistry)

theorem ofKeyword?_enumsIn {name : String} {type : ValueType} (h : ofKeyword? name = some type) :
    type.EnumsIn registry := by
  unfold ofKeyword? at h
  repeat' split at h
  all_goals first | (cases h; trivial) | cases h

theorem ofEnum_enumsIn (name : String) :
    (ofEnum name (registry.find? name)).EnumsIn registry := by
  cases h : registry.find? name with
  | none => trivial
  | some entry =>
    cases entry with
    | valid desc => exact ⟨desc, EnumRegistry.mem_valid_of_find? h, rfl, rfl⟩
    | invalid _ _ => trivial

theorem ofName_enumsIn (position : Position) (name : String) :
    (ofName registry position name).EnumsIn registry := by
  unfold ofName
  split
  · next h => exact ofKeyword?_enumsIn registry h
  · split
    · trivial
    · split
      · split <;> trivial
      · exact ofEnum_enumsIn registry name

theorem ofLiteral_enumsIn (kind : LiteralKind) : (ofLiteral kind).EnumsIn registry := by
  cases kind <;> trivial

theorem passesOn_enumsIn : PassesOn registry fun _ type => type.EnumsIn registry where
  name := ofName_enumsIn registry
  literal _ := ofLiteral_enumsIn registry
  object _ := trivial
  any _ := trivial
  unsupported _ _ := trivial
  array _ _ _ helement _ _ _ := helement
  stream _ _ hresult := hresult

/-- A resolved type mentions only valid enums of the registry it is resolved with. -/
theorem resolve_enumsIn (position : Position) (e : TypeExpr) :
    (resolve registry position e).EnumsIn registry :=
  resolve_induction (passesOn_enumsIn registry) position e

variable {registry}

/-- The enum that the metadata name for a type is valid, and its base is the type they show. -/
theorem EnumsIn.customEnumId? {type : ValueType} (h : type.EnumsIn registry) {id : String}
    (hid : type.customEnumId? = some id) :
    ∃ desc ∈ registry.valid, desc.name = id ∧ desc.base.name = type.typeName := by
  induction type with
  | enum name base =>
    obtain ⟨desc, hdesc, hname, rfl⟩ := h
    exact ⟨desc, hdesc, hname.trans (Option.some.inj hid), rfl⟩
  | array element dimensions ih => exact ih h hid
  | _ => exact nomatch hid

theorem ofHints_enumsIn (hints : List ReturnHint) : (ofHints hints).EnumsIn registry := by
  unfold ofHints
  repeat' split
  all_goals trivial

end ValueType

-- ════════════════════════════════════════════════════════════════════════
-- Signatures
-- ════════════════════════════════════════════════════════════════════════

/-- Every enum that the types of the signature mention is a valid enum of the registry. -/
structure Signature.EnumsIn (registry : EnumRegistry) (f : Signature) : Prop where
  parameters : ∀ p ∈ f.parameters, p.type.EnumsIn registry
  result : f.result.EnumsIn registry

namespace Candidate

variable (registry : EnumRegistry)

theorem parameter_enumsIn (decl : ParameterDecl) (tag : Option ParamTag) :
    (parameter registry decl tag).type.EnumsIn registry := by
  unfold parameter
  dsimp only
  split
  · trivial
  · exact ValueType.resolve_enumsIn registry .parameter _

theorem parameters_enumsIn (decl : FunctionDecl) (tags : TagSet) :
    ∀ p ∈ parameters registry decl tags, p.type.EnumsIn registry := by
  intro p hp
  obtain ⟨declared, _, rfl⟩ := List.mem_map.mp hp
  exact parameter_enumsIn registry declared _

variable {registry}

theorem delivered_enumsIn {type : ValueType} (h : type.EnumsIn registry) :
    (delivered type).EnumsIn registry := by
  unfold delivered
  split
  · exact h
  · trivial

theorem result_enumsIn (decl : FunctionDecl) (tags : TagSet) {ps : List Parameter}
    (h : ∀ p ∈ ps, p.type.EnumsIn registry) : (result registry decl tags ps).EnumsIn registry := by
  unfold result
  split
  · next p hp => exact delivered_enumsIn (h p (List.mem_of_find?_eq_some hp))
  · dsimp only
    split
    · exact ValueType.resolve_enumsIn registry .result _
    · exact ValueType.ofHints_enumsIn _

/-- The signature of a declaration mentions only valid enums of its file. -/
theorem ofDecl?_enumsIn {decl : FunctionDecl} {c : Candidate} (h : ofDecl? registry decl = some c) :
    c.signature.EnumsIn registry := by
  obtain ⟨doc, marker, _, _, hmade⟩ := ofDecl?_isMadeFrom h
  have hparameters : ∀ p ∈ c.signature.parameters, p.type.EnumsIn registry := by
    rw [hmade.parameters]
    exact parameters_enumsIn registry decl (TagSet.ofComment doc)
  refine ⟨hparameters, ?_⟩
  rw [hmade.result]
  exact result_enumsIn decl _ hparameters

end Candidate

end CustomFunctions
