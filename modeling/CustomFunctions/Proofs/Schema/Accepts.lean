import CustomFunctions.Proofs.Json.Sorted
import CustomFunctions.Schema.Basic

/-!
# What a schema accepts

The values that a schema accepts, as a relation apart from the way in which violations are listed. A
value has no violations exactly if its schema accepts it, and sorting the fields of a value without
repeated keys does not matter.

## Main definitions

- `Schema.Accepts` — the schema accepts the value
- `Schema.violations_eq_nil_iff` — no violations means that the value is accepted
-/

namespace CustomFunctions

/-- The rule accepts the text. -/
def TextRule.Accepts : TextRule → String → Prop
  | .any, _ => True
  | .nonempty, s => s ≠ ""
  | .oneOf choices, s => s ∈ choices
  | .form f, s => f.accepts s = true

namespace Schema

/-- The schema accepts the value. -/
inductive Accepts : Schema → Json → Prop
  | boolean (b : Bool) : Accepts .boolean (.bool b)
  | int (i : Int) : Accepts .numberOrText (.int i)
  | real (x : Binary64) : Accepts .numberOrText (.real x)
  | string (s : String) : Accepts .numberOrText (.string s)
  | text {rule : TextRule} {s : String} (h : rule.Accepts s) : Accepts (.text rule) (.string s)
  | array {items : Schema} {nonempty : Bool} {values : List Json}
      (hitems : ∀ v ∈ values, Accepts items v) (hnonempty : nonempty = true → values ≠ []) :
      Accepts (.array items nonempty) (.array values)
  | object {properties : List (String × Schema)} {required : List String}
      {fields : List (String × Json)}
      (hfields : ∀ f ∈ fields, ∀ schema, properties.lookup f.1 = some schema →
        Accepts schema f.2)
      (hknown : ∀ f ∈ fields, f.1 ∈ properties.map (·.1))
      (hrequired : ∀ k ∈ required, k ∈ fields.map (·.1)) :
      Accepts (.object properties required) (.object fields)

-- ════════════════════════════════════════════════════════════════════════
-- One kind of schema at a time
-- ════════════════════════════════════════════════════════════════════════

theorem here_eq_nil (fault : Fault) (holds : Bool) : here fault holds = [] ↔ holds = true := by
  cases holds <;> simp [here]

theorem accepts_boolean (v : Json) : boolean.Accepts v ↔ hasType v "boolean" = true := by
  constructor
  · rintro ⟨⟩
    rfl
  · intro h
    cases v with
    | bool b => exact .boolean b
    | _ => simp [hasType] at h

theorem accepts_numberOrText (v : Json) :
    numberOrText.Accepts v ↔ (hasType v "number" || hasType v "string") = true := by
  constructor
  · rintro (_ | _) <;> rfl
  · intro h
    cases v with
    | int i => exact .int i
    | real x => exact .real x
    | string s => exact .string s
    | _ => simp [hasType] at h

theorem textViolations_eq_nil (rule : TextRule) (s : String) :
    textViolations rule (.string s) = [] ↔ rule.Accepts s := by
  cases rule with
  | any => simp [textViolations, TextRule.Accepts]
  | nonempty => simp [textViolations, TextRule.Accepts, here_eq_nil]
  | oneOf choices => simp [textViolations, TextRule.Accepts, here_eq_nil]
  | form form => simp [textViolations, TextRule.Accepts, here_eq_nil]

theorem accepts_text (rule : TextRule) (v : Json) :
    (text rule).Accepts v ↔ textViolations rule v ++ typeViolations v "string" = [] := by
  constructor
  · rintro ⟨h⟩
    rw [(textViolations_eq_nil ..).mpr ‹_›]
    rfl
  · intro h
    rw [List.append_eq_nil_iff] at h
    cases v with
    | string s => exact .text ((textViolations_eq_nil rule s).mp h.1)
    | _ => simp [typeViolations, here_eq_nil, hasType] at h

/-- An array is accepted if its items are and if it has as many of them as asked for. -/
theorem accepts_array {items : Schema} {nonempty : Bool} {values : List Json} :
    (array items nonempty).Accepts (.array values) ↔
      (∀ v ∈ values, items.Accepts v) ∧ (nonempty = true → values ≠ []) := by
  constructor
  · rintro ⟨⟩
    exact ⟨‹_›, ‹_›⟩
  · exact fun h => .array h.1 h.2

theorem mem_keys_of_lookup {properties : List (String × Schema)} {k : String} {schema : Schema}
    (h : properties.lookup k = some schema) : k ∈ properties.map (·.1) := by
  obtain ⟨before, after, rfl, _⟩ := List.lookup_eq_some_iff.mp h
  simp

theorem exists_lookup_of_mem {properties : List (String × Schema)} {k : String}
    (h : k ∈ properties.map (·.1)) : ∃ schema, properties.lookup k = some schema := by
  obtain ⟨p, hp, rfl⟩ := List.mem_map.mp h
  exact Option.isSome_iff_exists.mp (List.lookup_isSome_iff.mpr ⟨p, hp, beq_self_eq_true _⟩)

/-- The schema of a property is smaller than that of the object. -/
theorem sizeOf_property {properties : List (String × Schema)} (required : List String) {k : String}
    {schema : Schema} (h : properties.lookup k = some schema) :
    sizeOf schema < sizeOf (object properties required) := by
  obtain ⟨before, after, rfl, _⟩ := List.lookup_eq_some_iff.mp h
  have hmem : (k, schema) ∈ before ++ (k, schema) :: after := by simp
  have hsize := List.sizeOf_lt_of_mem hmem
  simp only [Prod.mk.sizeOf_spec, object.sizeOf_spec] at hsize ⊢
  omega

/-- An object is accepted if each of its fields is named and accepted and no required one is
missing. -/
theorem accepts_object {properties : List (String × Schema)} {required : List String}
    {fields : List (String × Json)} :
    (object properties required).Accepts (.object fields) ↔
      (∀ f ∈ fields, ∃ schema, properties.lookup f.1 = some schema ∧ schema.Accepts f.2) ∧
        ∀ k ∈ required, k ∈ fields.map (·.1) := by
  constructor
  · rintro ⟨⟩
    next hfields hknown hrequired =>
    refine ⟨fun f hf => ?_, hrequired⟩
    obtain ⟨schema, hschema⟩ := exists_lookup_of_mem (hknown f hf)
    exact ⟨schema, hschema, hfields f hf schema hschema⟩
  · rintro ⟨hfields, hrequired⟩
    refine .object (fun f hf schema hschema => ?_) (fun f hf => ?_) hrequired
    · obtain ⟨schema', hschema', haccepts⟩ := hfields f hf
      rw [hschema] at hschema'
      rwa [Option.some.inj hschema']
    · obtain ⟨schema, hschema, _⟩ := hfields f hf
      exact mem_keys_of_lookup hschema

-- ════════════════════════════════════════════════════════════════════════
-- Where violations come from
-- ════════════════════════════════════════════════════════════════════════

theorem mem_underIndices {found : List (List Violation)} {v : Violation} :
    v ∈ underIndices found ↔
      ∃ i, ∃ h : i < found.length, ∃ inner ∈ found[i], inner.under (.index i) = v := by
  simp only [underIndices, List.mem_flatMap, Prod.exists, List.mem_zipIdx_iff_getElem?,
    List.getElem?_eq_some_iff, List.mem_map]
  constructor
  · rintro ⟨vs, i, ⟨hi, heq⟩, h⟩
    exact ⟨i, hi, heq ▸ h⟩
  · rintro ⟨i, hi, h⟩
    exact ⟨found[i], i, ⟨hi, rfl⟩, h⟩

theorem propertyViolations_eq (k : String) (v : Json) (properties : List (String × Schema)) :
    propertyViolations k v properties =
      ((properties.lookup k).map (violations · v)).elim []
        (List.map (Violation.under (.key k))) := by
  induction properties with
  | nil => rfl
  | cons p rest ih =>
    obtain ⟨key, schema⟩ := p
    rw [propertyViolations, List.lookup_cons]
    by_cases h : key = k
    · subst h
      simp
    · rw [if_neg h, ih, beq_false_of_ne (Ne.symm h)]

/-- The violations of an array are those of its items, if it need not have more of them. -/
theorem mem_violations_array {items : Schema} {nonempty : Bool} {values : List Json}
    (hnonempty : nonempty = true → values ≠ []) {v : Violation} :
    v ∈ violations (array items nonempty) (.array values) ↔
      ∃ i, ∃ h : i < values.length, ∃ inner ∈ violations items values[i],
        inner.under (.index i) = v := by
  have hholds : (! nonempty || ! values.isEmpty) = true := by
    cases nonempty <;> simp_all
  simp only [violations, hholds, here, if_true, List.append_nil, mem_underIndices,
    List.length_map, List.getElem_map]

/-- The violations of an object are those of its fields, if all of them are named and no required
one is missing. -/
theorem mem_violations_object {properties : List (String × Schema)} {required : List String}
    {fields : List (String × Json)} (hknown : ∀ f ∈ fields, f.1 ∈ properties.map (·.1))
    (hrequired : ∀ k ∈ required, k ∈ fields.map (·.1)) {v : Violation} :
    v ∈ violations (object properties required) (.object fields) ↔
      ∃ f ∈ fields, ∃ schema, properties.lookup f.1 = some schema ∧
        ∃ inner ∈ violations schema f.2, inner.under (.key f.1) = v := by
  have hunexpected : unexpectedKeys properties fields = [] := by
    rw [unexpectedKeys, List.filter_eq_nil_iff, List.forall_mem_map]
    intro f hf
    simpa using hknown f hf
  have hmissing : missingKeys required fields = [] := by
    rw [missingKeys, List.filter_eq_nil_iff]
    intro k hk
    simpa using hrequired k hk
  simp only [violations, hunexpected, hmissing, here, List.isEmpty_nil, if_true, List.map_nil,
    List.append_nil, List.mem_flatMap, propertyViolations_eq]
  refine exists_congr fun f => and_congr_right fun _ => ?_
  cases properties.lookup f.1 <;> simp

/-- The conditions on the keys of an object are necessary. -/
theorem keys_of_violations_eq_nil {properties : List (String × Schema)} {required : List String}
    {fields : List (String × Json)}
    (h : violations (object properties required) (.object fields) = []) :
    (∀ f ∈ fields, f.1 ∈ properties.map (·.1)) ∧ ∀ k ∈ required, k ∈ fields.map (·.1) := by
  simp only [violations, List.append_eq_nil_iff, here_eq_nil, List.map_eq_nil_iff,
    List.isEmpty_iff] at h
  obtain ⟨⟨_, hunexpected⟩, hmissing⟩ := h
  rw [unexpectedKeys, List.filter_eq_nil_iff, List.forall_mem_map] at hunexpected
  rw [missingKeys, List.filter_eq_nil_iff] at hmissing
  exact ⟨fun f hf => by simpa using hunexpected f hf, fun k hk => by simpa using hmissing k hk⟩

-- ════════════════════════════════════════════════════════════════════════
-- No violations
-- ════════════════════════════════════════════════════════════════════════

theorem violations_array_eq_nil {items : Schema} (nonempty : Bool)
    (ih : ∀ v, violations items v = [] ↔ items.Accepts v) (v : Json) :
    violations (array items nonempty) v = [] ↔ (array items nonempty).Accepts v := by
  cases v with
  | array values =>
    rw [accepts_array]
    constructor
    · intro h
      have hnonempty : nonempty = true → values ≠ [] := by
        rw [violations, List.append_eq_nil_iff, here_eq_nil] at h
        cases nonempty <;> simp_all
      refine ⟨fun w hw => ?_, hnonempty⟩
      rw [← ih w, List.eq_nil_iff_forall_not_mem]
      intro inner hinner
      obtain ⟨i, hi, rfl⟩ := List.getElem_of_mem hw
      have hmem := (mem_violations_array hnonempty).mpr ⟨i, hi, inner, hinner, rfl⟩
      rw [h] at hmem
      exact List.not_mem_nil hmem
    · rintro ⟨hitems, hnonempty⟩
      rw [List.eq_nil_iff_forall_not_mem]
      intro v hv
      obtain ⟨i, hi, inner, hinner, _⟩ := (mem_violations_array hnonempty).mp hv
      rw [(ih _).mpr (hitems _ (List.getElem_mem hi))] at hinner
      exact List.not_mem_nil hinner
  | _ => exact iff_of_false (by simp [violations, typeViolations, here_eq_nil, hasType]) nofun

theorem violations_object_eq_nil {properties : List (String × Schema)} (required : List String)
    (ih : ∀ k schema, properties.lookup k = some schema →
      ∀ v, violations schema v = [] ↔ schema.Accepts v) (v : Json) :
    violations (object properties required) v = [] ↔ (object properties required).Accepts v := by
  cases v with
  | object fields =>
    rw [accepts_object]
    constructor
    · intro h
      obtain ⟨hknown, hrequired⟩ := keys_of_violations_eq_nil h
      refine ⟨fun f hf => ?_, hrequired⟩
      obtain ⟨schema, hschema⟩ := exists_lookup_of_mem (hknown f hf)
      refine ⟨schema, hschema, ?_⟩
      rw [← ih f.1 schema hschema, List.eq_nil_iff_forall_not_mem]
      intro inner hinner
      have hmem := (mem_violations_object hknown hrequired).mpr
        ⟨f, hf, schema, hschema, inner, hinner, rfl⟩
      rw [h] at hmem
      exact List.not_mem_nil hmem
    · rintro ⟨hfields, hrequired⟩
      have hknown : ∀ f ∈ fields, f.1 ∈ properties.map (·.1) := by
        intro f hf
        obtain ⟨schema, hschema, _⟩ := hfields f hf
        exact mem_keys_of_lookup hschema
      rw [List.eq_nil_iff_forall_not_mem]
      intro v hv
      obtain ⟨f, hf, schema, hschema, inner, hinner, _⟩ :=
        (mem_violations_object hknown hrequired).mp hv
      obtain ⟨schema', hschema', haccepts⟩ := hfields f hf
      obtain rfl : schema = schema' := Option.some.inj (hschema.symm.trans hschema')
      rw [(ih f.1 schema hschema f.2).mpr haccepts] at hinner
      exact List.not_mem_nil hinner
  | _ => exact iff_of_false (by simp [violations, typeViolations, here_eq_nil, hasType]) nofun

/-- A value has no violations exactly if its schema accepts it. -/
theorem violations_eq_nil_iff (schema : Schema) (v : Json) :
    violations schema v = [] ↔ schema.Accepts v := by
  match schema with
  | .boolean => rw [accepts_boolean, violations, typeViolations, here_eq_nil]
  | .numberOrText => rw [accepts_numberOrText, violations, here_eq_nil]
  | .text rule => rw [accepts_text, violations]
  | .array items nonempty => exact violations_array_eq_nil nonempty (violations_eq_nil_iff items) v
  | .object properties required =>
    exact violations_object_eq_nil required (fun _ schema _ => violations_eq_nil_iff schema) v
termination_by sizeOf schema
decreasing_by
  · simp only [array.sizeOf_spec]
    omega
  · exact sizeOf_property required ‹_›

-- ════════════════════════════════════════════════════════════════════════
-- Sorted fields
-- ════════════════════════════════════════════════════════════════════════

/-- Sorting the fields of a value without repeated keys does not matter to a schema. -/
theorem accepts_sorted {v : Json} (hv : v.DistinctKeys) (schema : Schema) :
    schema.Accepts v.sorted ↔ schema.Accepts v := by
  induction hv generalizing schema with
  | null | bool _ | int _ | real _ | string _ => simp [Json.sorted]
  | @array items hitems ih =>
    rw [Json.sorted_array]
    constructor
    · rintro ⟨⟩
      next haccepts hnonempty =>
      rw [List.forall_mem_map] at haccepts
      exact accepts_array.mpr
        ⟨fun v hv => (ih v hv _).mp (haccepts v hv), fun h => by simpa using hnonempty h⟩
    · rintro ⟨⟩
      next haccepts hnonempty =>
      refine accepts_array.mpr ⟨?_, fun h => by simpa using hnonempty h⟩
      rw [List.forall_mem_map]
      exact fun v hv => (ih v hv _).mpr (haccepts v hv)
  | @object fields hkeys hfields ih =>
    obtain ⟨fields', hsorted, hperm⟩ := Json.sorted_object hkeys
    have hsame : ∀ k, k ∈ fields'.map (·.1) ↔ k ∈ fields.map (·.1) := by
      intro k
      rw [(hperm.map _).mem_iff, List.map_map]
      rfl
    rw [hsorted]
    cases schema with
    | object properties required =>
      simp only [accepts_object, hsame]
      refine and_congr_left fun _ => ?_
      constructor
      · intro h f hf
        obtain ⟨schema, hschema, haccepts⟩ := h (f.1, f.2.sorted)
          (hperm.mem_iff.mpr (List.mem_map_of_mem hf))
        exact ⟨schema, hschema, (ih f hf schema).mp haccepts⟩
      · intro h f' hf'
        obtain ⟨f, hf, rfl⟩ := List.mem_map.mp (hperm.mem_iff.mp hf')
        obtain ⟨schema, hschema, haccepts⟩ := h f hf
        exact ⟨schema, hschema, (ih f hf schema).mpr haccepts⟩
    | _ => exact iff_of_false (by rintro ⟨⟩) (by rintro ⟨⟩)

/-- A value without repeated keys is free of violations exactly if its schema accepts it. -/
theorem violations_sorted_eq_nil {v : Json} (hv : v.DistinctKeys) (schema : Schema) :
    violations schema v.sorted = [] ↔ schema.Accepts v :=
  (violations_eq_nil_iff schema v.sorted).trans (accepts_sorted hv schema)

/-- Sorting an object only moves its fields: the violations of the sorted object are those of the
sorted fields, if all of them are named and no required one is missing. -/
theorem mem_violations_sorted_object {properties : List (String × Schema)} {required : List String}
    {fields : List (String × Json)} (hkeys : (fields.map (·.1)).Nodup)
    (hknown : ∀ f ∈ fields, f.1 ∈ properties.map (·.1))
    (hrequired : ∀ k ∈ required, k ∈ fields.map (·.1)) {v : Violation} :
    v ∈ violations (object properties required) (Json.object fields).sorted ↔
      ∃ f ∈ fields, ∃ schema, properties.lookup f.1 = some schema ∧
        ∃ inner ∈ violations schema f.2.sorted, inner.under (.key f.1) = v := by
  obtain ⟨fields', hsorted, hperm⟩ := Json.sorted_object hkeys
  have hknown' : ∀ f ∈ fields', f.1 ∈ properties.map (·.1) := by
    simp only [hperm.mem_iff, List.forall_mem_map]
    exact hknown
  have hrequired' : ∀ k ∈ required, k ∈ fields'.map (·.1) := by
    intro k hk
    rw [(hperm.map _).mem_iff, List.map_map]
    exact hrequired k hk
  rw [hsorted, mem_violations_object hknown' hrequired']
  simp only [hperm.mem_iff, List.mem_map, exists_exists_and_eq_and]

end Schema

end CustomFunctions
