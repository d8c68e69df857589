import CustomFunctions.Proofs.Document.Unit
import Mathlib.Data.List.Nodup

/-!
# References to enums

A function of a document refers to an enum by its id and shows the type of its values beside it. In
the generation of one file every reference is to an enum of the same document. Merging keeps the
functions and the enums of several files apart from each other, so a reference stays intact exactly
if the enum of its file is also the first one of its name.

## Main definitions

- `EnumReference`, `FunctionEntry.enumReferences` — the references of a function
- `Document.Defines` — the document has the enum that a reference means
-/

namespace CustomFunctions

open FirstWins

/-- The id of a custom enum with the type that stands beside it. -/
structure EnumReference where
  id : String
  typeName : String
deriving DecidableEq

/-- The reference in the entry of a parameter. -/
def ParameterEntry.enumReference? (p : ParameterEntry) : Option EnumReference :=
  p.customEnumId.map fun id => ⟨id, p.typeName⟩

/-- The reference in the entry of a result. -/
def ResultEntry.enumReference? (r : ResultEntry) : Option EnumReference :=
  r.customEnumId.map fun id => ⟨id, r.typeName⟩

/-- The references of a function, in its parameters and in its result. -/
def FunctionEntry.enumReferences (f : FunctionEntry) : List EnumReference :=
  f.parameters.filterMap (·.enumReference?) ++ f.result.enumReference?.toList

/-- The document has an enum with the id and the type of the reference. -/
def Document.Defines (d : Document) (r : EnumReference) : Prop :=
  ∃ e ∈ d.enums, e.id = r.id ∧ e.base.name = r.typeName

instance (d : Document) (r : EnumReference) : Decidable (d.Defines r) :=
  inferInstanceAs (Decidable (∃ e ∈ d.enums, e.id = r.id ∧ e.base.name = r.typeName))

/-- The reference is to the enum and shows its type. -/
def CustomEnum.IsTarget (desc : CustomEnum) (r : EnumReference) : Prop :=
  desc.name = r.id ∧ desc.base.name = r.typeName

theorem BaseType.name_injective : Function.Injective BaseType.name := by
  intro a b h
  cases a <;> cases b <;> first | rfl | simp [name] at h

/-- A type refers to a valid enum, if it refers to any. -/
theorem ValueType.EnumsIn.exists_target {registry : EnumRegistry} {type : ValueType}
    (h : type.EnumsIn registry) {r : EnumReference}
    (hr : type.customEnumId?.map (fun id => ⟨id, type.typeName⟩) = some r) :
    ∃ desc ∈ registry.valid, desc.IsTarget r := by
  obtain ⟨id, hid, rfl⟩ := Option.map_eq_some_iff.mp hr
  exact h.customEnumId? hid

/-- A signature refers only to valid enums of the registry. -/
theorem Signature.EnumsIn.exists_target {registry : EnumRegistry} {f : Signature}
    (h : f.EnumsIn registry) {r : EnumReference}
    (hr : r ∈ (FunctionEntry.ofSignature f).enumReferences) :
    ∃ desc ∈ registry.valid, desc.IsTarget r := by
  rw [FunctionEntry.enumReferences, List.mem_append, List.mem_filterMap,
    Option.mem_toList] at hr
  rcases hr with ⟨entry, hentry, hr⟩ | hr
  · obtain ⟨p, hp, rfl⟩ := List.mem_map.mp hentry
    exact (h.parameters p (List.mem_of_mem_filter hp)).exists_target hr
  · exact h.result.exists_target hr

namespace Generation

variable (flags : DocumentFlags)

/-- A function of one file refers only to valid enums of the file. -/
theorem ofUnit_exists_target {unit : SourceUnit} {f : FunctionEntry}
    (hf : f ∈ (ofUnit flags unit).document.functions) {r : EnumReference}
    (hr : r ∈ f.enumReferences) : ∃ desc ∈ unit.validEnums, desc.IsTarget r := by
  rw [ofUnit_functions] at hf
  obtain ⟨s, hs, rfl⟩ := List.mem_map.mp hf
  exact (SourceUnit.accepted_enumsIn hs).exists_target hr

/-- The document of one file defines all that its functions refer to. -/
theorem ofUnit_defines {unit : SourceUnit} {f : FunctionEntry}
    (hf : f ∈ (ofUnit flags unit).document.functions) {r : EnumReference}
    (hr : r ∈ f.enumReferences) : (ofUnit flags unit).document.Defines r := by
  obtain ⟨desc, hdesc, htarget⟩ := ofUnit_exists_target flags hf hr
  refine ⟨.ofEnum desc, ?_, htarget⟩
  rw [ofUnit_enums]
  exact List.mem_map_of_mem hdesc

/-- A merged document defines what its first enum of the name is the target of. -/
theorem merge_defines (gs : List Generation) (r : EnumReference) :
    (merge gs).document.Defines r ↔
      ∃ e, (gs.flatMap (·.document.enums)).find? (fun e =>
        Text.lowerCase e.id = Text.lowerCase r.id) = some e ∧
          e.id = r.id ∧ e.base.name = r.typeName := by
  rw [← find?_merge_enums]
  constructor
  · rintro ⟨e, he, hid, hbase⟩
    cases hfind : (merge gs).document.enums.find? fun e =>
        Text.lowerCase e.id = Text.lowerCase r.id with
    | none =>
      have hnone := List.find?_eq_none.mp hfind e he
      rw [hid] at hnone
      exact absurd (decide_eq_true rfl) hnone
    -- no two merged enums have the same id, so the first one is the only one
    | some first =>
      have hfirst : Text.lowerCase first.id = Text.lowerCase r.id := by
        simpa using List.find?_some hfind
      have hnodup : ((merge gs).document.enums.map fun e => Text.lowerCase e.id).Nodup :=
        List.pairwise_map.mpr (merge_enum_ids_pairwise gs)
      have heq := List.inj_on_of_nodup_map hnodup (List.mem_of_find?_eq_some hfind) he
        (by rw [hfirst, hid])
      exact ⟨first, rfl, by rw [heq, hid], by rw [heq, hbase]⟩
  · rintro ⟨e, hfind, htarget⟩
    exact ⟨e, List.mem_of_find?_eq_some hfind, htarget⟩

/-- A reference in a merged document is intact exactly if the enum of its file is also, with its
name as written and its base, the first one of that name in any letter case. -/
theorem merge_reference_intact_iff (units : List SourceUnit) {f : FunctionEntry}
    (hf : f ∈ (merge (units.map (ofUnit flags))).document.functions) {r : EnumReference}
    (hr : r ∈ f.enumReferences) :
    ∃ unit ∈ units, f ∈ (ofUnit flags unit).document.functions ∧
      ∃ own ∈ unit.validEnums, own.IsTarget r ∧
        ∃ first, (units.flatMap (·.validEnums)).find? (fun desc =>
            Text.lowerCase desc.name = Text.lowerCase own.name) = some first ∧
          ((merge (units.map (ofUnit flags))).document.Defines r ↔
            first.name = own.name ∧ first.base = own.base) := by
  obtain ⟨g, hg, hfg⟩ := exists_source hf
  obtain ⟨unit, hunit, rfl⟩ := List.mem_map.mp hg
  obtain ⟨own, hown, htarget⟩ := ofUnit_exists_target flags hfg hr
  refine ⟨unit, hunit, hfg, own, hown, htarget, ?_⟩
  have henums : (units.map (ofUnit flags)).flatMap (·.document.enums) =
      (units.flatMap (·.validEnums)).map EnumEntry.ofEnum := by
    rw [List.flatMap_map, List.map_flatMap]
    rfl
  have hsome : ((units.flatMap (·.validEnums)).find? fun desc =>
      Text.lowerCase desc.name = Text.lowerCase own.name).isSome := by
    rw [List.find?_isSome]
    exact ⟨own, List.mem_flatMap.mpr ⟨unit, hunit, hown⟩, decide_eq_true rfl⟩
  obtain ⟨first, hfirst⟩ := Option.isSome_iff_exists.mp hsome
  refine ⟨first, hfirst, ?_⟩
  have hfind : ((units.flatMap (·.validEnums)).map EnumEntry.ofEnum).find?
      (fun e => Text.lowerCase e.id = Text.lowerCase r.id) = some (.ofEnum first) := by
    rw [List.find?_map, ← htarget.1]
    exact congrArg (Option.map EnumEntry.ofEnum) hfirst
  rw [merge_defines, henums, hfind, ← htarget.1, ← htarget.2]
  constructor
  · rintro ⟨e, he, hname, hbase⟩
    obtain rfl := Option.some.inj he
    exact ⟨hname, BaseType.name_injective hbase⟩
  · rintro ⟨hname, hbase⟩
    exact ⟨_, rfl, hname, congrArg BaseType.name hbase⟩

/-- A file with an enum of numbers. -/
def numberFile : SourceUnit where
  path := "a.ts"
  language := .typeScript
  functions := []
  enums := [
    { name := "Color"
      doc := some ⟨["@customenum"], 1⟩
      members := [⟨"Red", some (.number ⟨0⟩), none⟩]
      line := 2 }]

/-- A file with a function that takes an enum of texts. -/
def textFile : SourceUnit where
  path := "b.ts"
  language := .typeScript
  functions := [
    { name := "paint"
      doc := some ⟨["@customfunction"], 4⟩
      parameters := [{ name := "color", type? := some (.named "COLOR"), line := 5 }]
      returnType? := some (.named "string")
      isAsync := false
      returnHints := []
      line := 5 }]
  enums := [
    { name := "COLOR"
      doc := some ⟨["@customenum"], 1⟩
      members := [⟨"Red", some (.string "red"), none⟩]
      line := 2 }]

/-- The reference to the enum of texts dangles behind the enum of numbers. -/
theorem merge_reference_intact_iff_color :
    ∃ f ∈ (merge ([numberFile, textFile].map (ofUnit {}))).document.functions,
      ⟨"COLOR", "string"⟩ ∈ f.enumReferences ∧
        ¬ (merge ([numberFile, textFile].map (ofUnit {}))).document.Defines ⟨"COLOR", "string"⟩ := by
  obtain ⟨f, hf, hr⟩ : ∃ f ∈ (merge ([numberFile, textFile].map (ofUnit {}))).document.functions,
      ⟨"COLOR", "string"⟩ ∈ f.enumReferences := by
    decide +kernel
  obtain ⟨unit, _, _, own, _, ⟨hname, _⟩, first, hfirst, hintact⟩ :=
    merge_reference_intact_iff {} [numberFile, textFile] hf hr
  have hcolor : (([numberFile, textFile].flatMap (·.validEnums)).find? fun desc =>
      Text.lowerCase desc.name = Text.lowerCase "COLOR").map (·.name) = some "Color" := by
    decide +kernel
  rw [hname] at hfirst hintact
  rw [hfirst] at hcolor
  refine ⟨f, hf, hr, fun h => ?_⟩
  rw [Option.map_some, (hintact.mp h).1] at hcolor
  exact absurd hcolor (by decide)

/-- Merged documents can refer to enums that they do not define. -/
theorem not_forall_merge_defines :
    ¬ ∀ (flags : DocumentFlags) (units : List SourceUnit),
      ∀ f ∈ (merge (units.map (ofUnit flags))).document.functions, ∀ r ∈ f.enumReferences,
        (merge (units.map (ofUnit flags))).document.Defines r := by
  intro h
  have hfiles := h {} [numberFile, textFile]
  revert hfiles
  decide +kernel

/-- In the document of one file every reference is to exactly one enum and shows its type, and no
two enums have the same id in any letter case. -/
theorem ofUnit_references_resolve (unit : SourceUnit) :
    let document := (ofUnit flags unit).document
    (∀ f ∈ document.functions, ∀ r ∈ f.enumReferences,
      ∃ e, document.enums.filter (fun e => e.id = r.id) = [e] ∧ e.base.name = r.typeName) ∧
    document.enums.Pairwise fun d e => Text.lowerCase d.id ≠ Text.lowerCase e.id := by
  intro document
  have hpairwise := ofUnit_enum_ids_pairwise flags unit
  refine ⟨fun f hf r hr => ?_, hpairwise⟩
  obtain ⟨e, he, hid, hbase⟩ := ofUnit_defines flags hf hr
  have hone : document.enums.countP (fun e => e.id = r.id) ≤ 1 := by
    refine countP_owner_le_one (fun d e : EnumEntry => Text.lowerCase d.id = Text.lowerCase e.id)
      (fun a b ha hb => ?_) hpairwise
    rw [of_decide_eq_true ha, of_decide_eq_true hb]
  have hmem : e ∈ document.enums.filter fun e => e.id = r.id :=
    List.mem_filter.mpr ⟨he, decide_eq_true hid⟩
  rw [filter_eq_toList_find? hone, Option.mem_toList] at hmem
  exact ⟨e, by rw [filter_eq_toList_find? hone, hmem]; rfl, hbase⟩

/-- The function that takes the enum of texts refers to the one enum of its file. -/
theorem ofUnit_references_resolve_color :
    ∃ f ∈ (ofUnit {} textFile).document.functions, ⟨"COLOR", "string"⟩ ∈ f.enumReferences ∧
      ∃ e, (ofUnit {} textFile).document.enums.filter (fun e => e.id = "COLOR") = [e] ∧
        e.base.name = "string" := by
  obtain ⟨f, hf, hr⟩ : ∃ f ∈ (ofUnit {} textFile).document.functions,
      ⟨"COLOR", "string"⟩ ∈ f.enumReferences := by
    decide +kernel
  exact ⟨f, hf, hr, (ofUnit_references_resolve {} textFile).1 f hf _ hr⟩

end Generation

end CustomFunctions
