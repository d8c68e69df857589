import CustomFunctions.Command.Generate
import CustomFunctions.Proofs.Document.UsableEnums
import CustomFunctions.Proofs.Schema.Numbers

/-!
# The schema check of the text

The check of a document and the check of its text come to the same result. The text is always JSON
within the limits of the format: its integers are small, its other numbers are finite, and its values
are nested five levels deep at most.

## Main definitions

- `Document.suits_toJson`, `Document.isReadable_toJson` — what the values in a document are like
- `Document.checkText_eq_check` — both checks agree
-/

namespace CustomFunctions

open FunctionOptions (forall_mem_whenSet)
open Json (IsReadable)

-- ════════════════════════════════════════════════════════════════════════
-- The kinds of the values in a document
-- ════════════════════════════════════════════════════════════════════════

theorem ParameterEntry.suits_toJson (p : ParameterEntry) : Schema.parameter.Suits p.toJson := by
  refine .ofFields ?_
  simp only [List.forall_mem_append, forall_mem_optionalField, forall_mem_whenSet,
    List.forall_mem_cons, List.not_mem_nil, false_implies, implies_true, and_true, and_assoc]
  exact ⟨⟨_, rfl, .text _⟩, fun _ _ => ⟨_, rfl, .text _⟩, ⟨_, rfl, .text _⟩,
    fun _ _ => ⟨_, rfl, .text _⟩, fun _ _ => ⟨_, rfl, .text _⟩, ⟨_, rfl, .text _⟩,
    ⟨_, rfl, .boolean _⟩, fun _ => ⟨_, rfl, .boolean _⟩⟩

theorem ResultEntry.suits_toJson (r : ResultEntry) : Schema.result.Suits r.toJson := by
  rw [toJson_eq]
  refine .ofFields ?_
  simp only [List.forall_mem_append, forall_mem_optionalField, List.forall_mem_cons,
    List.not_mem_nil, false_implies, implies_true, and_true, and_assoc]
  exact ⟨⟨_, rfl, .text _⟩, fun _ _ => ⟨_, rfl, .text _⟩, fun _ _ => ⟨_, rfl, .text _⟩⟩

theorem FunctionEntry.suits_toJson (f : FunctionEntry) : Schema.function.Suits f.toJson := by
  refine .ofFields ?_
  simp only [List.forall_mem_append, forall_mem_optionalField, List.forall_mem_cons,
    List.not_mem_nil, false_implies, implies_true, and_true, and_assoc]
  exact ⟨⟨_, rfl, .text _⟩, ⟨_, rfl, .text _⟩, fun _ _ => ⟨_, rfl, .text _⟩,
    fun _ _ => ⟨_, rfl, .text _⟩,
    ⟨_, rfl, .array (List.forall_mem_map.mpr fun p _ => p.suits_toJson)⟩,
    ⟨_, rfl, f.result.suits_toJson⟩, ⟨_, rfl, f.options.accepts_toJson.suits⟩⟩

theorem EnumValue.suits_toJson (v : EnumValue) : Schema.numberOrText.Suits v.toJson := by
  cases v with
  | string s => exact .string s
  | number x =>
    rw [toJson]
    split
    · split
      · exact .int _
      · exact .real _
    · split
      · exact .real _
      · exact .null

theorem EnumEntry.suits_toJson (e : EnumEntry) : Schema.enum.Suits e.toJson := by
  have hvalue : ∀ v : EnumValueEntry, Schema.enumValue.Suits v.toJson := by
    intro v
    refine .ofFields ?_
    simp only [List.forall_mem_append, forall_mem_optionalField, List.forall_mem_cons,
      List.not_mem_nil, false_implies, implies_true, and_true, and_assoc]
    exact ⟨⟨_, rfl, .text _⟩, ⟨_, rfl, v.value.suits_toJson⟩, fun _ _ => ⟨_, rfl, .text _⟩⟩
  refine .ofFields ?_
  simp only [List.forall_mem_cons, List.not_mem_nil, false_implies, implies_true, and_true]
  exact ⟨⟨_, rfl, .text _⟩, ⟨_, rfl, .text _⟩,
    ⟨_, rfl, .array (List.forall_mem_map.mpr fun v _ => hvalue v)⟩⟩

/-- Every part of a document is of the kind that the schema asks for, except that a number may be
`null`. -/
theorem Document.suits_toJson (d : Document) : Schema.metadata.Suits d.toJson := by
  rw [toJson_eq]
  refine .ofFields ?_
  simp only [fields, List.forall_mem_append, forall_mem_whenSet, List.forall_mem_singleton,
    and_assoc]
  refine ⟨fun _ => ⟨_, rfl, .boolean _⟩, fun _ => ⟨_, rfl, .boolean _⟩,
    ⟨_, rfl, .array (List.forall_mem_map.mpr fun f _ => f.suits_toJson)⟩, fun f hf => ?_⟩
  obtain rfl := eq_of_mem_enumsField hf
  exact ⟨_, rfl, .array (List.forall_mem_map.mpr fun e _ => e.suits_toJson)⟩

-- ════════════════════════════════════════════════════════════════════════
-- The limits of the format
-- ════════════════════════════════════════════════════════════════════════

theorem FunctionOptions.isReadable_toJson (options : FunctionOptions) :
    options.toJson.IsReadable 1 := by
  refine .object fun f hf => ?_
  obtain ⟨b, hb⟩ := options.fields_bool f hf
  rw [hb]
  exact .bool b

theorem ParameterEntry.isReadable_toJson (p : ParameterEntry) : p.toJson.IsReadable 1 := by
  refine .object ?_
  simp only [List.forall_mem_append, forall_mem_optionalField, forall_mem_whenSet,
    List.forall_mem_cons, List.not_mem_nil, false_implies, implies_true, and_true, IsReadable.string,
    IsReadable.bool]

theorem ResultEntry.isReadable_toJson (r : ResultEntry) : r.toJson.IsReadable 1 := by
  rw [toJson_eq]
  refine .object ?_
  simp only [List.forall_mem_append, forall_mem_optionalField, List.forall_mem_cons,
    List.not_mem_nil, false_implies, implies_true, and_true, IsReadable.string]

theorem Json.IsReadable.succ {depth : Nat} {v : Json} (h : v.IsReadable depth) :
    v.IsReadable (depth + 1) := by
  induction h with
  | null => exact .null
  | bool b => exact .bool b
  | int h => exact .int h
  | real h => exact .real h
  | string s => exact .string s
  | array _ ih => exact .array ih
  | object _ ih => exact .object ih

theorem FunctionEntry.isReadable_toJson (f : FunctionEntry) : f.toJson.IsReadable 3 := by
  refine .object ?_
  simp only [List.forall_mem_append, forall_mem_optionalField, List.forall_mem_cons,
    List.not_mem_nil, false_implies, implies_true, and_true, true_and, IsReadable.string]
  exact ⟨.array (List.forall_mem_map.mpr fun p _ => p.isReadable_toJson),
    f.result.isReadable_toJson.succ, f.options.isReadable_toJson.succ⟩

/-- A value that is written as an integer is below the limit of integers, and one that is written as a
fraction is finite. -/
theorem EnumValue.isReadable_toJson (v : EnumValue) : v.toJson.IsReadable 0 := by
  cases v with
  | string s => exact .string s
  | number x =>
    rw [toJson]
    split
    · next i hi =>
      split
      · next hsmall =>
        refine .int (hsmall.le.trans ?_)
        decide
      · exact .real (Binary64.isFinite_of_toInt? hi)
    · split
      · next hfinite => exact .real hfinite
      · exact .null

theorem EnumEntry.isReadable_toJson (e : EnumEntry) : e.toJson.IsReadable 3 := by
  have hvalue : ∀ v : EnumValueEntry, v.toJson.IsReadable 1 := by
    intro v
    refine .object ?_
    simp only [List.forall_mem_append, forall_mem_optionalField, List.forall_mem_cons,
      List.not_mem_nil, false_implies, implies_true, and_true, true_and, IsReadable.string]
    exact v.value.isReadable_toJson
  refine .object ?_
  simp only [List.forall_mem_cons, List.not_mem_nil, false_implies, implies_true, and_true, true_and,
    IsReadable.string]
  exact .array (List.forall_mem_map.mpr fun v _ => hvalue v)

/-- A document is within the limits of the format. -/
theorem Document.isReadable_toJson (d : Document) : d.toJson.IsReadable 5 := by
  rw [toJson_eq]
  refine .object ?_
  simp only [fields, List.forall_mem_append, forall_mem_whenSet, List.forall_mem_singleton,
    IsReadable.bool, implies_true, true_and]
  refine ⟨.array (List.forall_mem_map.mpr fun f _ => f.isReadable_toJson), fun f hf => ?_⟩
  obtain rfl := eq_of_mem_enumsField hf
  exact .array (List.forall_mem_map.mpr fun e _ => e.isReadable_toJson)

-- ════════════════════════════════════════════════════════════════════════
-- Both checks
-- ════════════════════════════════════════════════════════════════════════

namespace Document

/-- The text of a document is read as the document, apart from its binary numbers. -/
theorem read?_text (d : Document) {tail : String}
    (htail : ∀ c ∈ tail.toList, Json.Token.isSpace c = true) :
    Json.read? (d.text ++ tail) = some (d.toJson.mapReals Json.reread) :=
  Json.read?_pretty d.isReadable_toJson (by decide) htail

/-- A text that is read as the document, apart from its binary numbers, is checked like the
document. -/
theorem checkText_of_read? {d : Document} {s : String}
    (h : Json.read? s = some (d.toJson.mapReals Json.reread)) : Schema.checkText s = d.check := by
  rw [Schema.checkText, h]
  simp only [check, Schema.check, Schema.metadataViolations_mapReals d.suits_toJson]

/-- Checking the text of a document, as such or as it stands in a file, gives the same result as
checking the document: both are fine, or both find the same violations in the same order. It never
fails because the text is no JSON. -/
theorem checkText_eq_check (d : Document) :
    Schema.checkText d.text = d.check ∧ Schema.checkText d.fileText = d.check ∧
      d.check ≠ .error .json := by
  have hfeed : ∀ c ∈ "\n".toList, Json.Token.isSpace c = true := List.forall_mem_singleton.mpr rfl
  refine ⟨?_, checkText_of_read? (d.read?_text hfeed), ?_⟩
  · have htail : ∀ c ∈ "".toList, Json.Token.isSpace c = true := nofun
    have hread := d.read?_text htail
    rw [String.append_empty] at hread
    exact checkText_of_read? hread
  · rw [check, Schema.check]
    split <;> nofun

end Document

end CustomFunctions
