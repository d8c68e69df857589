import CustomFunctions.Proofs.CustomEnum.Registrations
import CustomFunctions.Proofs.Document.Selection
import CustomFunctions.Proofs.Review.Verdict
import CustomFunctions.Proofs.ValueType.Enums

/-!
# The generation of one file

The generation of a file holds the accepted functions and the valid enums of the file. It is
parallel, and its functions offer to a merge what the reviews have accepted.

## Main definitions

- `SourceUnit.candidates`, `SourceUnit.accepted` — the tagged functions of a file and those accepted
- `SourceUnit.validEnums` — the valid enums of a file
-/

namespace CustomFunctions

open FirstWins

namespace SourceUnit

/-- The registry of the enums of the file. -/
def registry (unit : SourceUnit) : EnumRegistry :=
  (EnumRegistry.scan unit).1

/-- The candidates that the functions of the file make. -/
def candidates (unit : SourceUnit) : List Candidate :=
  unit.functions.filterMap (Candidate.ofDecl? unit.registry)

/-- The accepted functions of the file. -/
def accepted (unit : SourceUnit) : List Signature :=
  Review.accepted (Review.all .empty unit.candidates)

/-- The valid enums of the file. -/
def validEnums (unit : SourceUnit) : List CustomEnum :=
  unit.registry.valid

theorem validEnums_eq (unit : SourceUnit) :
    unit.validEnums = unit.registrations.filterMap fun r => r.entry.valid? := by
  rw [validEnums, registry, scan_eq, EnumRegistry.valid, List.filterMap_map]
  rfl

/-- The valid enums of a file have names that differ in more than letter case. -/
theorem validEnums_pairwise (unit : SourceUnit) :
    unit.validEnums.Pairwise fun d e => Text.lowerCase d.name ≠ Text.lowerCase e.name := by
  rw [validEnums_eq, List.pairwise_filterMap]
  refine unit.registrations_pairwise.imp_of_mem fun {r s} hr hs h desc hdesc desc' hdesc' => ?_
  obtain ⟨_, hr⟩ := exists_isSound hr
  obtain ⟨_, hs⟩ := exists_isSound hs
  rw [(hr.described desc hdesc).shape.1, (hs.described desc' hdesc').shape.1]
  exact h (by rw [hdesc']; rfl)

/-- A valid enum has an enum name and at least one member, and its members have values of its base
type. -/
theorem validEnums_shape {unit : SourceUnit} {desc : CustomEnum} (h : desc ∈ unit.validEnums) :
    Identifier.isEnumName desc.name = true ∧ desc.members ≠ [] ∧
      ∀ m ∈ desc.members, m.value.base = desc.base := by
  rw [validEnums_eq] at h
  obtain ⟨r, hr, hdesc⟩ := List.mem_filterMap.mp h
  obtain ⟨_, hsound⟩ := exists_isSound hr
  obtain ⟨hname, hmembers, hbase⟩ := (hsound.described desc hdesc).shape
  refine ⟨?_, hmembers, hbase⟩
  rw [hname]
  exact hsound.name_valid (by rw [hdesc]; rfl)

/-- An accepted function comes from a candidate. -/
theorem mem_candidates_of_accepted {unit : SourceUnit} {f : Signature} (h : f ∈ unit.accepted) :
    ∃ c ∈ unit.candidates, c.signature = f := by
  obtain ⟨r, hr, _, rfl⟩ := Review.mem_accepted.mp h
  have hmem := List.mem_map_of_mem (f := Review.signature) hr
  rw [Review.all_signatures] at hmem
  exact List.mem_map.mp hmem

/-- An accepted function keeps the rules. -/
theorem accepted_keepsRules {unit : SourceUnit} {f : Signature} (h : f ∈ unit.accepted) :
    f.KeepsRules := by
  obtain ⟨c, _, hclean, rfl⟩ := Review.exists_clean_of_accepted h
  exact hclean.rules

/-- The accepted functions of a file do not clash with each other. -/
theorem accepted_pairwise (unit : SourceUnit) :
    unit.accepted.Pairwise fun f g => ¬ f.Clashes g :=
  Review.accepted_pairwise unit.candidates

/-- The parameters of an accepted function have the names that its declaration gives them. -/
theorem accepted_parameter_name {unit : SourceUnit} {f : Signature} (h : f ∈ unit.accepted)
    {p : Parameter} (hp : p ∈ f.parameters) :
    ∃ decl ∈ unit.functions, ∃ q ∈ decl.parameters, q.name = p.name := by
  obtain ⟨c, hc, rfl⟩ := mem_candidates_of_accepted h
  obtain ⟨decl, hdecl, hcandidate⟩ := List.mem_filterMap.mp hc
  exact ⟨decl, hdecl, Candidate.ofDecl?_parameter_name hcandidate hp⟩

/-- The types of accepted functions mention only valid enums of the file. -/
theorem accepted_enumsIn {unit : SourceUnit} {f : Signature} (h : f ∈ unit.accepted) :
    f.EnumsIn unit.registry := by
  obtain ⟨c, hc, rfl⟩ := mem_candidates_of_accepted h
  obtain ⟨decl, _, hdecl⟩ := List.mem_filterMap.mp hc
  exact Candidate.ofDecl?_enumsIn hdecl

end SourceUnit

/-- What a signature offers as part of a file at a position. -/
def Offer.ofSignature (source : Nat) (file : Option String) (f : Signature) : Offer :=
  ⟨source, file, .ofSignature f, .ofSignature f⟩

namespace Generation

variable (flags : DocumentFlags) (unit : SourceUnit)

theorem ofUnit_functions :
    (ofUnit flags unit).document.functions = unit.accepted.map FunctionEntry.ofSignature :=
  rfl

theorem ofUnit_associations :
    (ofUnit flags unit).associations = unit.accepted.map Association.ofSignature :=
  rfl

theorem ofUnit_enums :
    (ofUnit flags unit).document.enums = unit.validEnums.map EnumEntry.ofEnum :=
  rfl

theorem ofUnit_offers (i : Nat) :
    (ofUnit flags unit).offers i =
      unit.accepted.map (Offer.ofSignature i (ofUnit flags unit).inputs.head?) := by
  rw [offers, ofUnit_functions, ofUnit_associations, List.zip_map', List.map_map]
  rfl

theorem ofUnit_isParallel : (ofUnit flags unit).IsParallel := by
  rw [IsParallel, ofUnit_functions, ofUnit_associations, List.map_map, List.map_map]
  rfl

/-- The enums in the document of a file have ids that differ in more than letter case. -/
theorem ofUnit_enum_ids_pairwise :
    (ofUnit flags unit).document.enums.Pairwise fun d e =>
      Text.lowerCase d.id ≠ Text.lowerCase e.id := by
  rw [ofUnit_enums, List.pairwise_map]
  exact unit.validEnums_pairwise

/-- What a file offers to a merge does not clash with each other. -/
theorem ofUnit_offers_pairwise (i : Nat) :
    ((ofUnit flags unit).offers i).Pairwise fun a b => ¬ a.Clashes b := by
  rw [ofUnit_offers, List.pairwise_map]
  exact unit.accepted_pairwise

end Generation

end CustomFunctions
