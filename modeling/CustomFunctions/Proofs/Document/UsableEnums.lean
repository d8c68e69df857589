import CustomFunctions.Proofs.Document.Conformity
import CustomFunctions.Script.Declarations

/-!
# Usable enums

An enum can be used if its schema accepts it and its members have values of the type that it shows.
A number that is not finite is written as `null`, which is neither, so the enums of a document are
usable exactly if their numbers are finite.

## Main definitions

- `EnumEntry.IsUsable` — the schema accepts the enum, and its values are of the type that it shows
- `EnumValue.IsWritable` — the value can be written down in JSON
- `Generation.ofUnit_enum_isUsable_iff` — when an enum of a document is usable
-/

namespace CustomFunctions

theorem Binary64.isFinite_of_toInt? {x : Binary64} {i : Int} (h : x.toInt? = some i) :
    x.isFinite = true := by
  rw [toInt?] at h
  rw [isFinite]
  cases hvalue : x.value with
  | finite negative mantissa exponent => rfl
  | _ => rw [hvalue] at h; exact nomatch h

namespace EnumValue

/-- The value can be written down in JSON. -/
def IsWritable : EnumValue → Prop
  | number x => x.isFinite = true
  | string _ => True

instance (v : EnumValue) : Decidable v.IsWritable :=
  match v with
  | number x => inferInstanceAs (Decidable (x.isFinite = true))
  | string _ => inferInstanceAs (Decidable True)

/-- A value is written as a number or as a text, whichever it is, or else as `null`. -/
theorem toJson_cases (v : EnumValue) :
    (v.IsWritable ∧ Schema.hasType v.toJson v.base.name = true) ∨
      (¬ v.IsWritable ∧ v.toJson = .null) := by
  cases v with
  | string s => exact .inl ⟨trivial, rfl⟩
  | number x =>
    rw [toJson]
    cases h : x.toInt? with
    | some i =>
      refine .inl ⟨Binary64.isFinite_of_toInt? h, ?_⟩
      dsimp only
      split <;> rfl
    | none =>
      by_cases hfinite : x.isFinite = true
      · exact .inl ⟨hfinite, by simp [hfinite]; rfl⟩
      · exact .inr ⟨hfinite, by simp [hfinite]⟩

theorem hasType_toJson_iff (v : EnumValue) :
    Schema.hasType v.toJson v.base.name = true ↔ v.IsWritable := by
  obtain ⟨hwritable, htype⟩ | ⟨hwritable, hnull⟩ := v.toJson_cases
  · exact iff_of_true htype hwritable
  · rw [hnull]
    exact iff_of_false (by cases v <;> simp [Schema.hasType, base, BaseType.name]) hwritable

theorem accepts_toJson_iff (v : EnumValue) :
    Schema.numberOrText.Accepts v.toJson ↔ v.IsWritable := by
  rw [Schema.accepts_numberOrText]
  obtain ⟨hwritable, htype⟩ | ⟨hwritable, hnull⟩ := v.toJson_cases
  · refine iff_of_true ?_ hwritable
    rw [Bool.or_eq_true]
    exact match v with
    | number _ => .inl htype
    | string _ => .inr htype
  · rw [hnull]
    exact iff_of_false (by decide) hwritable

theorem distinctKeys_toJson (v : EnumValue) : v.toJson.DistinctKeys := by
  unfold toJson
  repeat' split
  · exact .int _
  · exact .real _
  · exact .real _
  · exact .null
  · exact .string _

end EnumValue

namespace EnumValueEntry

theorem distinctKeys_toJson (v : EnumValueEntry) : v.toJson.DistinctKeys := by
  refine .ofKeys ["name", "value", "tooltip"] (by decide) ?_ ?_
  · simp only [List.map_append]
    exact (List.Sublist.refl ["name", "value"]).append (optionalField_keys ..)
  · simp only [List.forall_mem_append, forall_mem_optionalField, List.forall_mem_cons,
      List.not_mem_nil, false_implies, implies_true, and_true, true_and, Json.DistinctKeys.string]
    exact v.value.distinctKeys_toJson

theorem accepts_toJson_iff (v : EnumValueEntry) :
    Schema.enumValue.Accepts v.toJson ↔ v.value.IsWritable := by
  rw [← v.value.accepts_toJson_iff, toJson, Schema.enumValue, Schema.accepts_object]
  simp only [List.forall_mem_append, forall_mem_optionalField, List.forall_mem_cons,
    List.not_mem_nil, false_implies, implies_true, and_true, and_assoc]
  constructor
  · rintro ⟨_, ⟨schema, hschema, haccepts⟩, _⟩
    obtain rfl : Schema.numberOrText = schema := Option.some.inj hschema
    exact haccepts
  · exact fun h => ⟨⟨_, rfl, Schema.accepts_anyText _⟩, ⟨_, rfl, h⟩,
      fun s _ => ⟨_, rfl, Schema.accepts_anyText s⟩, by simp, by simp⟩

end EnumValueEntry

namespace EnumEntry

/-- The enum can be used: the schema accepts it, and the value of each of its members is of the type
that it shows. -/
structure IsUsable (e : EnumEntry) : Prop where
  conforms : Schema.violations Schema.enum e.toJson.sorted = []
  values_typed : ∀ v ∈ e.values, Schema.hasType v.value.toJson e.base.name = true

theorem distinctKeys_toJson (e : EnumEntry) : e.toJson.DistinctKeys := by
  refine .ofKeys ["id", "type", "values"] (by decide) (.refl _) ?_
  simp only [List.forall_mem_cons, List.not_mem_nil, false_implies, implies_true, and_true,
    true_and, Json.DistinctKeys.string]
  exact .arrayMap EnumValueEntry.distinctKeys_toJson _

/-- An enum with an enum name and at least one member is accepted exactly if its values can be
written. -/
theorem accepts_toJson_iff {e : EnumEntry} (hid : Identifier.isEnumName e.id = true)
    (hvalues : e.values ≠ []) :
    Schema.enum.Accepts e.toJson ↔ ∀ v ∈ e.values, v.value.IsWritable := by
  have htype : TextRule.Accepts (.oneOf ["number", "string"]) e.base.name := by
    cases e.base <;> simp [TextRule.Accepts, BaseType.name]
  have hitems : (Schema.array Schema.enumValue true).Accepts
      (.array (e.values.map EnumValueEntry.toJson)) ↔ ∀ v ∈ e.values, v.value.IsWritable := by
    simp only [Schema.accepts_array, List.forall_mem_map, EnumValueEntry.accepts_toJson_iff]
    exact and_iff_left (by simpa using hvalues)
  rw [← hitems, toJson, Schema.enum, Schema.accepts_object]
  simp only [List.forall_mem_cons, List.not_mem_nil, false_implies, implies_true, and_true]
  constructor
  · rintro ⟨⟨_, _, schema, hschema, haccepts⟩, _⟩
    obtain rfl : Schema.array Schema.enumValue true = schema := Option.some.inj hschema
    exact haccepts
  · exact fun h => ⟨⟨⟨_, rfl, .text hid⟩, ⟨_, rfl, .text htype⟩, ⟨_, rfl, h⟩⟩, by simp⟩

/-- An enum with an enum name and at least one member, whose members all have its base type, is
usable exactly if its values can be written. -/
theorem isUsable_iff {e : EnumEntry} (hid : Identifier.isEnumName e.id = true)
    (hvalues : e.values ≠ []) (hbase : ∀ v ∈ e.values, v.value.base = e.base) :
    e.IsUsable ↔ ∀ v ∈ e.values, v.value.IsWritable := by
  have hconforms : Schema.violations Schema.enum e.toJson.sorted = [] ↔
      ∀ v ∈ e.values, v.value.IsWritable :=
    (Schema.violations_sorted_eq_nil e.distinctKeys_toJson _).trans
      (accepts_toJson_iff hid hvalues)
  refine ⟨fun h => hconforms.mp h.conforms, fun h => ⟨hconforms.mpr h, fun v hv => ?_⟩⟩
  rw [← hbase v hv]
  exact v.value.hasType_toJson_iff.mpr (h v hv)

end EnumEntry

namespace Generation

variable (flags : DocumentFlags) (unit : SourceUnit)

/-- An enum of the document of a file is usable exactly if its numbers are finite. -/
theorem ofUnit_enum_isUsable_iff {e : EnumEntry} (he : e ∈ (ofUnit flags unit).document.enums) :
    e.IsUsable ↔ ∀ v ∈ e.values, v.value.IsWritable := by
  rw [ofUnit_enums] at he
  obtain ⟨desc, hdesc, rfl⟩ := List.mem_map.mp he
  obtain ⟨hname, hmembers, hbase⟩ := SourceUnit.validEnums_shape hdesc
  refine EnumEntry.isUsable_iff hname (by simpa [EnumEntry.ofEnum] using hmembers) ?_
  simpa [EnumEntry.ofEnum, EnumValueEntry.ofMember] using hbase

/-- The enum of texts is usable. -/
theorem ofUnit_enum_isUsable_iff_color :
    ∃ e ∈ (ofUnit {} textFile).document.enums, e.id = "COLOR" ∧ e.IsUsable := by
  obtain ⟨e, he, hid, hwritable⟩ : ∃ e ∈ (ofUnit {} textFile).document.enums,
      e.id = "COLOR" ∧ ∀ v ∈ e.values, v.value.IsWritable := by
    decide +kernel
  exact ⟨e, he, hid, (ofUnit_enum_isUsable_iff {} textFile he).mpr hwritable⟩

/-- A source text can declare a number beyond all finite ones, and the enum is still taken. -/
theorem not_forall_enum_isUsable :
    ¬ ∀ (flags : DocumentFlags) (path text : String) (unit : SourceUnit),
      SourceUnit.ofText path .typeScript text = .ok unit →
        ∀ e ∈ (ofUnit flags unit).document.enums, e.IsUsable := by
  intro h
  have hlimit : (SourceUnit.ofText "functions.ts" .typeScript
      "/** @customenum */ enum Limit { Max = 1e999 }").toOption.any (fun unit =>
        (ofUnit {} unit).document.enums.any fun e => e.values.any fun v =>
          ! Schema.hasType v.value.toJson e.base.name) = true := by
    decide +kernel
  cases hunit : SourceUnit.ofText "functions.ts" .typeScript
      "/** @customenum */ enum Limit { Max = 1e999 }" with
  | error line => rw [hunit] at hlimit; exact nomatch hlimit
  | ok unit =>
    rw [hunit] at hlimit
    simp only [Except.toOption, Option.any_some, List.any_eq_true, Bool.not_eq_true'] at hlimit
    obtain ⟨e, he, v, hv, htype⟩ := hlimit
    rw [(h {} _ _ unit hunit e he).values_typed v hv] at htype
    exact nomatch htype

end Generation

end CustomFunctions
