import CustomFunctions.Proofs.Document.EnumReferences
import CustomFunctions.Proofs.Schema.Accepts
import CustomFunctions.Schema.Metadata

/-!
# Documents and their schema

The schema of the metadata document accepts every function that keeps the rules, if its parameters
have names. So what the schema has against the document of a file, if anything, is in single enums.

## Main definitions

- `FunctionEntry.accepts_ofSignature` — functions that keep the rules are accepted
- `Document.path_of_mem_violations` — where the violations of a document can be
- `Generation.ofUnit_functions_conform` — the same for the document of one file
-/

namespace CustomFunctions

-- ════════════════════════════════════════════════════════════════════════
-- Fields that may be left out
-- ════════════════════════════════════════════════════════════════════════

theorem optionalField_keys (key : String) (value : Option String) :
    ((optionalField key value).map (·.1)).Sublist [key] := by
  cases value with
  | none => exact List.nil_sublist _
  | some s => exact .refl _

theorem forall_mem_optionalField {key : String} {value : Option String}
    {p : String × Json → Prop} :
    (∀ f ∈ optionalField key value, p f) ↔ ∀ s, value = some s → p (key, .string s) := by
  cases value <;> simp [optionalField]

namespace FunctionOptions

theorem whenSet_keys (key : String) (flag : Bool) :
    ((whenSet key flag).map (·.1)).Sublist [key] := by
  cases flag with
  | false => exact List.nil_sublist _
  | true => exact .refl _

theorem mem_whenSet {key : String} {flag : Bool} {f : String × Json} :
    f ∈ whenSet key flag ↔ flag = true ∧ f = (key, .bool true) := by
  cases flag <;> simp [whenSet]

theorem forall_mem_whenSet {key : String} {flag : Bool} {p : String × Json → Prop} :
    (∀ f ∈ whenSet key flag, p f) ↔ (flag = true → p (key, .bool true)) := by
  cases flag <;> simp [whenSet]

end FunctionOptions

open FunctionOptions (whenSet whenSet_keys mem_whenSet forall_mem_whenSet)

/-- An object whose keys stand in the order of a list without repetition. -/
theorem Json.DistinctKeys.ofKeys {fields : List (String × Json)} (keys : List String)
    (hkeys : keys.Nodup) (hsub : (fields.map (·.1)).Sublist keys)
    (hfields : ∀ f ∈ fields, f.2.DistinctKeys) : (Json.object fields).DistinctKeys :=
  .object (hsub.nodup hkeys) hfields

theorem Json.DistinctKeys.arrayMap {α : Type} {toJson : α → Json}
    (h : ∀ a, (toJson a).DistinctKeys) (items : List α) :
    (Json.array (items.map toJson)).DistinctKeys :=
  .array (List.forall_mem_map.mpr fun a _ => h a)

-- ════════════════════════════════════════════════════════════════════════
-- Parameters and results
-- ════════════════════════════════════════════════════════════════════════

theorem ValueType.accepts_typeName (type : ValueType) :
    Schema.valueType.Accepts (.string type.typeName) := by
  refine .text ?_
  induction type with
  | enum name base => cases base <;> simp [TextRule.Accepts, typeName, BaseType.name]
  | array element dimensions ih => exact ih
  | _ => simp [TextRule.Accepts, typeName]

theorem Dimensionality.accepts_name (d : Dimensionality) :
    Schema.dimensionality.Accepts (.string d.name) := by
  refine .text ?_
  cases d <;> simp [TextRule.Accepts, name]

theorem CellValueKind.accepts_name (kind : CellValueKind) :
    Schema.cellValueType.Accepts (.string kind.name) := by
  refine .text ?_
  cases kind <;> simp [TextRule.Accepts, name]

theorem Schema.accepts_anyText (s : String) : Schema.anyText.Accepts (.string s) :=
  .text trivial

namespace ParameterEntry

theorem distinctKeys_toJson (p : ParameterEntry) : p.toJson.DistinctKeys := by
  refine .ofKeys ["name", "description", "type", "cellValueType", "customEnumId",
    "dimensionality", "optional", "repeating"] (by decide) ?_ ?_
  · simp only [List.map_append]
    exact ((((((List.Sublist.refl ["name"]).append (optionalField_keys ..)).append
      (.refl ["type"])).append (optionalField_keys ..)).append (optionalField_keys ..)).append
      (.refl ["dimensionality", "optional"])).append (whenSet_keys ..)
  · simp only [List.forall_mem_append, forall_mem_optionalField, forall_mem_whenSet,
      List.forall_mem_cons, List.not_mem_nil, false_implies, implies_true, and_true,
      Json.DistinctKeys.string, Json.DistinctKeys.bool]

/-- The entry of a parameter with a name is accepted. -/
theorem accepts_ofParameter {p : Parameter} (hname : p.name ≠ "") :
    Schema.parameter.Accepts (ofParameter p).toJson := by
  refine Schema.accepts_object.mpr ⟨?_, by simp⟩
  simp only [List.forall_mem_append, forall_mem_optionalField, forall_mem_whenSet,
    List.forall_mem_cons, List.not_mem_nil, false_implies, implies_true, and_true, and_assoc]
  refine ⟨⟨_, rfl, .text hname⟩, fun s _ => ⟨_, rfl, Schema.accepts_anyText s⟩,
    ⟨_, rfl, p.type.accepts_typeName⟩, fun s hs => ⟨_, rfl, ?_⟩,
    fun s _ => ⟨_, rfl, Schema.accepts_anyText s⟩, ⟨_, rfl, p.type.dimensionality.accepts_name⟩,
    ⟨_, rfl, .boolean _⟩, fun _ => ⟨_, rfl, .boolean _⟩⟩
  obtain ⟨kind, _, rfl⟩ := Option.map_eq_some_iff.mp hs
  exact kind.accepts_name

end ParameterEntry

namespace ResultEntry

theorem toJson_eq (r : ResultEntry) :
    r.toJson = .object
      ([("type", .string r.typeName)]
      ++ optionalField "dimensionality"
        (if r.dimensionality = .matrix then some r.dimensionality.name else none)
      ++ optionalField "customEnumId" r.customEnumId) := by
  rw [toJson]
  split <;> rfl

theorem distinctKeys_toJson (r : ResultEntry) : r.toJson.DistinctKeys := by
  rw [toJson_eq]
  refine .ofKeys ["type", "dimensionality", "customEnumId"] (by decide) ?_ ?_
  · simp only [List.map_append]
    exact ((List.Sublist.refl ["type"]).append (optionalField_keys ..)).append
      (optionalField_keys ..)
  · simp only [List.forall_mem_append, forall_mem_optionalField, List.forall_mem_cons,
      List.not_mem_nil, false_implies, implies_true, and_true, Json.DistinctKeys.string]

theorem accepts_ofType (type : ValueType) : Schema.result.Accepts (ofType type).toJson := by
  rw [toJson_eq]
  refine Schema.accepts_object.mpr ⟨?_, by simp⟩
  simp only [List.forall_mem_append, forall_mem_optionalField, List.forall_mem_cons,
    List.not_mem_nil, false_implies, implies_true, and_true, and_assoc]
  refine ⟨⟨_, rfl, type.accepts_typeName⟩, fun s hs => ⟨_, rfl, ?_⟩,
    fun s _ => ⟨_, rfl, Schema.accepts_anyText s⟩⟩
  obtain rfl := Option.some.inj (Option.ite_none_right_eq_some.mp hs).2
  exact type.dimensionality.accepts_name

end ResultEntry

-- ════════════════════════════════════════════════════════════════════════
-- Options and functions
-- ════════════════════════════════════════════════════════════════════════

/-- In an object whose fields all have the same schema, each key that it names has that schema. -/
theorem Schema.lookup_uniform {keys : List String} {k : String} (h : k ∈ keys) (schema : Schema) :
    (keys.map fun key => (key, schema)).lookup k = some schema := by
  have hkey : k ∈ (keys.map fun key => (key, schema)).map (·.1) := by simpa using h
  obtain ⟨found, hfound⟩ := exists_lookup_of_mem hkey
  obtain ⟨before, after, heq, _⟩ := List.lookup_eq_some_iff.mp hfound
  have hmem : (k, found) ∈ keys.map fun key => (key, schema) := by simp [heq]
  obtain ⟨_, _, hpair⟩ := List.mem_map.mp hmem
  rw [hfound, (Prod.mk.inj hpair).2]

namespace FunctionOptions

theorem fields_keys (options : FunctionOptions) :
    (options.fields.map (·.1)).Sublist
      ["volatile", "stream", "cancelable", "requiresAddress", "requiresParameterAddresses",
        "requiresStreamAddress", "requiresStreamParameterAddresses", "supportSync",
        "capturesCallingObject", "excludeFromAutoComplete", "linkedEntityLoadService",
        "linkedEntityDataProvider", "action"] := by
  simp only [fields, List.append_assoc, List.map_append]
  exact (List.Sublist.refl ["volatile", "stream", "cancelable"]).append
    ((whenSet_keys ..).append ((whenSet_keys ..).append ((whenSet_keys ..).append
      ((whenSet_keys ..).append ((whenSet_keys ..).append ((whenSet_keys ..).append
        ((whenSet_keys ..).append ((whenSet_keys ..).append ((whenSet_keys ..).append
          (whenSet_keys ..))))))))))

theorem fields_bool (options : FunctionOptions) : ∀ f ∈ options.fields, ∃ b, f.2 = .bool b := by
  simp only [fields, List.forall_mem_append, forall_mem_whenSet, List.forall_mem_cons,
    List.not_mem_nil, false_implies, implies_true, and_true, Json.bool.injEq, exists_eq']

theorem distinctKeys_toJson (options : FunctionOptions) : options.toJson.DistinctKeys := by
  refine .ofKeys _ (by decide) options.fields_keys fun f hf => ?_
  obtain ⟨b, hb⟩ := options.fields_bool f hf
  rw [hb]
  exact .bool b

/-- Every option is one that the schema knows. -/
theorem accepts_toJson (options : FunctionOptions) : Schema.options.Accepts options.toJson := by
  refine Schema.accepts_object.mpr ⟨fun f hf => ?_, nofun⟩
  have hkey := options.fields_keys.subset (List.mem_map_of_mem hf)
  obtain ⟨b, hb⟩ := options.fields_bool f hf
  rw [hb]
  exact ⟨.boolean, Schema.lookup_uniform hkey _, .boolean b⟩

end FunctionOptions

namespace FunctionEntry

theorem distinctKeys_toJson (f : FunctionEntry) : f.toJson.DistinctKeys := by
  refine .ofKeys ["id", "name", "description", "helpUrl", "parameters", "result", "options"]
    (by decide) ?_ ?_
  · simp only [List.map_append]
    exact (((List.Sublist.refl ["id", "name"]).append (optionalField_keys ..)).append
      (optionalField_keys ..)).append (.refl ["parameters", "result", "options"])
  · simp only [List.forall_mem_append, forall_mem_optionalField, List.forall_mem_cons,
      List.not_mem_nil, false_implies, implies_true, and_true, true_and, Json.DistinctKeys.string]
    exact ⟨.arrayMap ParameterEntry.distinctKeys_toJson _, f.result.distinctKeys_toJson,
      f.options.distinctKeys_toJson⟩

/-- The entry of a function that keeps the rules is accepted, if its parameters have names. -/
theorem accepts_ofSignature {f : Signature} (hrules : f.KeepsRules)
    (hnames : ∀ p ∈ f.parameters, p.name ≠ "") :
    Schema.function.Accepts (ofSignature f).toJson := by
  have hparameters : ∀ v ∈ (ofSignature f).parameters.map ParameterEntry.toJson,
      Schema.parameter.Accepts v := by
    simp only [ofSignature, List.forall_mem_map]
    exact fun p hp => ParameterEntry.accepts_ofParameter (hnames p (List.mem_of_mem_filter hp))
  refine Schema.accepts_object.mpr ⟨?_, by simp⟩
  simp only [List.forall_mem_append, forall_mem_optionalField, List.forall_mem_cons,
    List.not_mem_nil, false_implies, implies_true, and_true, and_assoc]
  exact ⟨⟨_, rfl, .text ((Signature.isFunctionId_iff _).mpr hrules.id_valid)⟩,
    ⟨_, rfl, .text ((Signature.isFunctionId_iff _).mpr hrules.name_valid)⟩,
    fun s _ => ⟨_, rfl, Schema.accepts_anyText s⟩, fun s _ => ⟨_, rfl, Schema.accepts_anyText s⟩,
    ⟨_, rfl, .array hparameters fun h => absurd h Bool.false_ne_true⟩,
    ⟨_, rfl, ResultEntry.accepts_ofType f.result⟩, ⟨_, rfl, f.options.accepts_toJson⟩⟩

end FunctionEntry

-- ════════════════════════════════════════════════════════════════════════
-- Documents
-- ════════════════════════════════════════════════════════════════════════

namespace Document

/-- The field of the enums, which is written only if there are some. -/
def enumsField (d : Document) : List (String × Json) :=
  if d.enums = [] then [] else [("enums", .array (d.enums.map EnumEntry.toJson))]

/-- The fields of a document. -/
def fields (d : Document) : List (String × Json) :=
  whenSet "allowCustomDataForDataTypeAny" d.allowCustomDataForDataTypeAny
  ++ whenSet "allowErrorForDataTypeAny" d.allowErrorForDataTypeAny
  ++ [("functions", .array (d.functions.map FunctionEntry.toJson))]
  ++ d.enumsField

theorem toJson_eq (d : Document) : d.toJson = .object d.fields :=
  rfl

theorem eq_of_mem_enumsField {d : Document} {f : String × Json} (h : f ∈ d.enumsField) :
    f = ("enums", .array (d.enums.map EnumEntry.toJson)) := by
  unfold enumsField at h
  split at h
  · exact absurd h List.not_mem_nil
  · exact List.mem_singleton.mp h

theorem fields_keys (d : Document) :
    (d.fields.map (·.1)).Sublist
      ["allowCustomDataForDataTypeAny", "allowErrorForDataTypeAny", "functions", "enums"] := by
  have henums : (d.enumsField.map (·.1)).Sublist ["enums"] := by
    unfold enumsField
    split
    · exact List.nil_sublist _
    · exact .refl _
  simp only [fields, List.map_append]
  exact (((whenSet_keys ..).append (whenSet_keys ..)).append (.refl ["functions"])).append henums

/-- The violations of a document whose functions are accepted are those of single enums. -/
theorem path_of_mem_violations {d : Document}
    (h : ∀ f ∈ d.functions, Schema.function.Accepts f.toJson) {v : Schema.Violation}
    (hv : v ∈ Schema.violations Schema.metadata d.toJson.sorted) :
    ∃ i rest, v.path = .key "enums" :: .index i :: rest := by
  rw [toJson_eq] at hv
  obtain ⟨f, hf, schema, hschema, inner, hinner, rfl⟩ :=
    (Schema.mem_violations_sorted_object (d.fields_keys.nodup (by decide))
      (by exact fun f hf => d.fields_keys.subset (List.mem_map_of_mem hf))
      (by simp [fields])).mp hv
  -- the violation comes from a field that its schema does not accept, which leaves the enums
  have hrefuted : f.2.DistinctKeys → ¬ schema.Accepts f.2 := by
    intro hkeys haccepts
    rw [(Schema.violations_sorted_eq_nil hkeys schema).mpr haccepts] at hinner
    exact List.not_mem_nil hinner
  simp only [fields, List.mem_append, List.mem_singleton] at hf
  obtain ((hflag | hflag) | rfl) | henums := hf
  · obtain ⟨_, rfl⟩ := mem_whenSet.mp hflag
    obtain rfl := Option.some.inj hschema
    exact absurd (.boolean _) (hrefuted (.bool _))
  · obtain ⟨_, rfl⟩ := mem_whenSet.mp hflag
    obtain rfl := Option.some.inj hschema
    exact absurd (.boolean _) (hrefuted (.bool _))
  · obtain rfl := Option.some.inj hschema
    exact absurd (.array (List.forall_mem_map.mpr h) nofun)
      (hrefuted (.arrayMap FunctionEntry.distinctKeys_toJson _))
  · obtain rfl := eq_of_mem_enumsField henums
    obtain rfl := Option.some.inj hschema
    rw [Json.sorted_array] at hinner
    obtain ⟨i, _, inner', _, rfl⟩ := (Schema.mem_violations_array (by nofun)).mp hinner
    exact ⟨i, inner'.path, rfl⟩

end Document

namespace Generation

variable (flags : DocumentFlags) (unit : SourceUnit)

/-- In the document of a file whose parameters have names, all violations of the schema are in
single enums. -/
theorem ofUnit_functions_conform (hnames : ∀ f ∈ unit.functions, ∀ p ∈ f.parameters, p.name ≠ "") :
    ∀ v ∈ Schema.violations Schema.metadata (ofUnit flags unit).document.toJson.sorted,
      ∃ i rest, v.path = .key "enums" :: .index i :: rest := by
  refine fun v hv => Document.path_of_mem_violations ?_ hv
  rw [ofUnit_functions, List.forall_mem_map]
  intro f hf
  refine FunctionEntry.accepts_ofSignature (SourceUnit.accepted_keepsRules hf) fun p hp => ?_
  obtain ⟨decl, hdecl, q, hq, hname⟩ := SourceUnit.accepted_parameter_name hf hp
  rw [← hname]
  exact hnames decl hdecl q hq

/-- The document of a file with a function has no violations outside its enums. -/
theorem ofUnit_functions_conform_paint :
    (ofUnit {} textFile).document.functions ≠ [] ∧
      ∀ v ∈ Schema.violations Schema.metadata (ofUnit {} textFile).document.toJson.sorted,
        ∃ i rest, v.path = .key "enums" :: .index i :: rest :=
  ⟨by decide +kernel, ofUnit_functions_conform {} textFile (by decide)⟩

end Generation

end CustomFunctions
