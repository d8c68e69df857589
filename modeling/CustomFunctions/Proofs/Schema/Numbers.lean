import CustomFunctions.Proofs.Json.ReadBack
import CustomFunctions.Proofs.Schema.Accepts
import CustomFunctions.Schema.Metadata

/-!
# Which number does not matter

The violations of a value show its texts and arrays, but no number where a number is allowed. As long as
every part of a value is of the kind that its schema asks for, the violations do not change with the
binary numbers of the value.

## Main definitions

- `Schema.Suits` — every part of the value is of the kind that the schema asks for
- `Schema.violations_mapReals` — the violations of such a value do not depend on its binary numbers
-/

namespace CustomFunctions

-- ════════════════════════════════════════════════════════════════════════
-- Sorting
-- ════════════════════════════════════════════════════════════════════════

namespace Json

theorem insertField_mapRealsFields (f : Binary64 → Binary64) (key : String) (v : Json)
    (fields : List (String × Json)) :
    insertField key (v.mapReals f) (mapRealsFields f fields) =
      mapRealsFields f (insertField key v fields) := by
  induction fields with
  | nil => rfl
  | cons field rest ih =>
    obtain ⟨k, w⟩ := field
    rw [mapRealsFields, insertField, insertField]
    split
    · rfl
    · split
      · rfl
      · rw [ih, mapRealsFields]

mutual

theorem sorted_mapReals (f : Binary64 → Binary64) (v : Json) :
    (v.mapReals f).sorted = v.sorted.mapReals f := by
  match v with
  | .null | .bool _ | .int _ | .real _ | .string _ => rfl
  | .array items => rw [mapReals, sorted, sorted, mapReals, sortedItems_mapReals f items]
  | .object fields =>
    have hfields := sortedFields_mapReals f [] fields
    rw [mapRealsFields] at hfields
    rw [mapReals, sorted, sorted, mapReals, hfields]

theorem sortedItems_mapReals (f : Binary64 → Binary64) (items : List Json) :
    sortedItems (mapRealsItems f items) = mapRealsItems f (sortedItems items) := by
  match items with
  | [] => rfl
  | v :: rest =>
    rw [mapRealsItems, sortedItems, sortedItems, mapRealsItems, sorted_mapReals f v,
      sortedItems_mapReals f rest]

theorem sortedFields_mapReals (f : Binary64 → Binary64) (done fields : List (String × Json)) :
    sortedFields (mapRealsFields f done) (mapRealsFields f fields) =
      mapRealsFields f (sortedFields done fields) := by
  match fields with
  | [] => rfl
  | (k, v) :: rest =>
    rw [mapRealsFields, sortedFields, sortedFields, sorted_mapReals f v,
      insertField_mapRealsFields, sortedFields_mapReals f _ rest]

end

theorem mem_insertField {key : String} {v : Json} {fields : List (String × Json)}
    {field : String × Json} (h : field ∈ insertField key v fields) :
    field = (key, v) ∨ field ∈ fields := by
  induction fields with
  | nil => exact .inl (List.mem_singleton.mp h)
  | cons first rest ih =>
    obtain ⟨k, w⟩ := first
    rw [insertField] at h
    split at h
    · exact List.mem_cons.mp h
    · split at h
      · exact (List.mem_cons.mp h).imp_right (List.mem_cons_of_mem _)
      · rcases List.mem_cons.mp h with rfl | h
        · exact .inr List.mem_cons_self
        · exact (ih h).imp_right (List.mem_cons_of_mem _)

/-- Sorting makes up no fields. -/
theorem mem_sortedFields {done fields : List (String × Json)} {field : String × Json}
    (h : field ∈ sortedFields done fields) :
    field ∈ done ∨ ∃ g ∈ fields, field = (g.1, g.2.sorted) := by
  induction fields generalizing done with
  | nil => exact .inl h
  | cons g rest ih =>
    obtain ⟨k, v⟩ := g
    rw [sortedFields] at h
    rcases ih h with hdone | ⟨g, hg, rfl⟩
    · exact (mem_insertField hdone).symm.imp_right fun heq => ⟨_, List.mem_cons_self, heq⟩
    · exact .inr ⟨g, List.mem_cons_of_mem _ hg, rfl⟩

end Json

-- ════════════════════════════════════════════════════════════════════════
-- Values of the right kinds
-- ════════════════════════════════════════════════════════════════════════

namespace Schema

/-- Every part of the value is of the kind that the schema asks for, except that `null` may stand for a
number. Nothing is said about keys, about the number of items or about what texts look like. -/
inductive Suits : Schema → Json → Prop
  | boolean (b : Bool) : Suits .boolean (.bool b)
  | null : Suits .numberOrText .null
  | int (i : Int) : Suits .numberOrText (.int i)
  | real (x : Binary64) : Suits .numberOrText (.real x)
  | string (s : String) : Suits .numberOrText (.string s)
  | text {rule : TextRule} (s : String) : Suits (.text rule) (.string s)
  | array {items : Schema} {nonempty : Bool} {values : List Json}
      (h : ∀ v ∈ values, Suits items v) : Suits (.array items nonempty) (.array values)
  | object {properties : List (String × Schema)} {required : List String}
      {fields : List (String × Json)}
      (h : ∀ f ∈ fields, ∀ schema, properties.lookup f.1 = some schema → Suits schema f.2) :
      Suits (.object properties required) (.object fields)

/-- A value that is accepted is of the right kinds. -/
theorem Accepts.suits {schema : Schema} {v : Json} (h : schema.Accepts v) : schema.Suits v := by
  induction h with
  | boolean b => exact .boolean b
  | int i => exact .int i
  | real x => exact .real x
  | string s => exact .string s
  | text _ => exact .text _
  | array _ _ ih => exact .array ih
  | object _ _ _ ih => exact .object ih

/-- An object whose fields all have schemas of their own. -/
theorem Suits.ofFields {properties : List (String × Schema)} {required : List String}
    {fields : List (String × Json)}
    (h : ∀ f ∈ fields, ∃ schema, properties.lookup f.1 = some schema ∧ Suits schema f.2) :
    (Schema.object properties required).Suits (.object fields) := by
  refine .object fun f hf schema hschema => ?_
  obtain ⟨schema', hschema', hsuits⟩ := h f hf
  obtain rfl : schema = schema' := Option.some.inj (hschema.symm.trans hschema')
  exact hsuits

theorem Suits.sorted {schema : Schema} {v : Json} (h : schema.Suits v) : schema.Suits v.sorted := by
  induction h with
  | boolean b => exact .boolean b
  | null => exact .null
  | int i => exact .int i
  | real x => exact .real x
  | string s => exact .string s
  | text s => exact .text s
  | array _ ih =>
    rw [Json.sorted_array]
    exact .array (List.forall_mem_map.mpr ih)
  | object _ ih =>
    rw [Json.sorted]
    refine .object fun f hf schema hschema => ?_
    rcases Json.mem_sortedFields hf with hnil | ⟨g, hg, rfl⟩
    · exact absurd hnil List.not_mem_nil
    · exact ih g hg schema hschema

/-- The violations of a value of the right kinds do not depend on its binary numbers. -/
theorem violations_mapReals {schema : Schema} {v : Json} (h : schema.Suits v)
    (f : Binary64 → Binary64) : violations schema (v.mapReals f) = violations schema v := by
  induction h with
  | boolean _ | null | int _ | real _ | string _ | text _ => rfl
  | @array items nonempty values _ ih =>
    have hitems : (values.map (Json.mapReals f)).map (violations items) =
        values.map (violations items) := by
      rw [List.map_map]
      exact List.map_congr_left ih
    rw [Json.mapReals_array]
    cases values with
    | nil => rfl
    | cons v rest =>
      simp only [violations, hitems]
      simp [here]
  | @object properties required fields _ ih =>
    have hkeys : (fields.map fun field => (field.1, field.2.mapReals f)).map (·.1) =
        fields.map (·.1) := by
      rw [List.map_map]
      rfl
    have hfields : (fields.map fun field => (field.1, field.2.mapReals f)).flatMap
          (fun field => propertyViolations field.1 field.2 properties) =
        fields.flatMap fun field => propertyViolations field.1 field.2 properties := by
      rw [List.flatMap_map]
      refine List.flatMap_congr fun field hfield => ?_
      rw [propertyViolations_eq, propertyViolations_eq]
      cases hschema : properties.lookup field.1 with
      | none => rfl
      | some schema => rw [Option.map_some, Option.map_some, ih field hfield schema hschema]
    rw [Json.mapReals_object]
    simp only [violations, hfields, unexpectedKeys, missingKeys, hkeys]

/-- So the texts of the violations do not depend on the binary numbers either. -/
theorem metadataViolations_mapReals {v : Json} (h : metadata.Suits v) (f : Binary64 → Binary64) :
    metadataViolations (v.mapReals f) = metadataViolations v := by
  rw [metadataViolations, Json.sorted_mapReals, violations_mapReals h.sorted, metadataViolations]

end Schema

end CustomFunctions
