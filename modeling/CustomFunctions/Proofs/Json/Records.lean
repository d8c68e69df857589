import CustomFunctions.Json.Fields
import CustomFunctions.Proofs.Json.ReadBack

/-!
# Records read back

What is written for a text, a truth value, a number or a list of texts is read back as such. And of a
record that is written as an object whose keys are known and distinct, each written field is found
again, and a field that is not written has its default.

## Main definitions

- `Raw.IsRecord` — a value that is written as a record
- `Raw.IsRecord.recordFields?_eq` — all its fields are found
- `Raw.IsRecord.field?_eq`, `Raw.field?_of_missing` — what is found of a field
-/

namespace CustomFunctions.Json.Raw

-- ════════════════════════════════════════════════════════════════════════
-- Single values
-- ════════════════════════════════════════════════════════════════════════

theorem text?_raw (s : String) : text? (Json.string s).raw = some s := by
  rw [raw, text?, Quoted.decode?_partOf, Option.map_some, String.ofList_toList]

theorem bool?_raw (b : Bool) : bool? (Json.bool b).raw = some b := by
  rw [raw, bool?]

/-- A word of sixty-four bits is written with digits only. -/
theorem word?_raw (n : UInt64) : word? (Json.int n.toNat).raw = some n := by
  have hdigits : Digits.natOf (Digits.decimal n.toNat) = n.toNat := by
    rw [natOf_eq (isDigits_decimal n.toNat).2, ofDigitChars_decimal]
  have hsign : ¬ (n.toNat : Int) < 0 := by omega
  have hmax : n.toNat ≤ NumberLiteral.wordMax := Nat.le_sub_one_of_lt n.toNat_lt
  simp only [raw, word?, intLiteral, hsign, decide_false, Option.isSome_none, Bool.or_false,
    Bool.false_eq_true, if_false, Int.natAbs_natCast, hdigits, hmax, if_true, UInt64.ofNat_toNat]

theorem texts?_raw (texts : List String) :
    texts? (Json.array (texts.map .string)).raw = some texts := by
  rw [raw, texts?]
  induction texts with
  | nil => rfl
  | cons s rest ih =>
    rw [List.map_cons, rawItems, List.mapM_cons, text?_raw, ih]
    rfl

/-- A word is written as a string. -/
theorem wordOf?_raw (s : String) : wordOf? (Json.string s).raw = some s := by
  rw [raw, wordOf?, Quoted.decode?_partOf, Option.map_some, String.ofList_toList]

-- ════════════════════════════════════════════════════════════════════════
-- Fields
-- ════════════════════════════════════════════════════════════════════════

theorem namedFields?_rawFields (fields : List (String × Json)) :
    namedFields? (rawFields fields) = some (fields.map fun f => (f.1, f.2.raw)) := by
  induction fields with
  | nil => rfl
  | cons f rest ih =>
    rw [namedFields?] at ih ⊢
    rw [rawFields, List.mapM_cons, ih]
    dsimp only
    rw [Quoted.decode?_partOf, Option.map_some, String.ofList_toList]
    rfl

/-- The fields of a written object, each with its name. -/
def written (fields : List (String × Json)) : List (String × Raw) :=
  fields.map fun f => (f.1, f.2.raw)

theorem written_keys (fields : List (String × Json)) :
    (written fields).map (·.1) = fields.map (·.1) := by
  rw [written, List.map_map]
  rfl

/-- The value is an object with the given fields. Their keys are among the names of the fields of a
record, and none stands there twice. -/
structure IsRecord (names : List String) (fields : List (String × Json)) (v : Json) : Prop where
  object : v = .object fields
  known : ∀ f ∈ fields, f.1 ∈ names
  distinct : (fields.map (·.1)).Nodup

namespace IsRecord

variable {names : List String} {fields : List (String × Json)} {v w : Json} {α : Type}
  {decode : Raw → Option α} {default x : α}

/-- All fields of a written record are found. -/
theorem recordFields?_eq (h : IsRecord names fields v) :
    recordFields? names v.raw = some (written fields) := by
  have hnamed : namedFields? (rawFields fields) = some (written fields) :=
    namedFields?_rawFields fields
  have hall : (written fields).filter (fun f => names.contains f.1) = written fields := by
    rw [List.filter_eq_self, written, List.forall_mem_map]
    intro f hf
    exact List.contains_iff_mem.mpr (h.known f hf)
  have hkeys : ((written fields).map (·.1)).Nodup := by
    rw [written_keys]
    exact h.distinct
  rw [h.object]
  simp only [raw, recordFields?, hnamed, Option.bind_eq_bind, Option.bind_some, hall, hkeys, if_true]

/-- A written field is read as its value. -/
theorem field?_eq (h : IsRecord names fields v) (name : String) (hmem : (name, w) ∈ fields)
    (hdecode : decode w.raw = some x) :
    field? (written fields) name default decode = some x := by
  obtain ⟨before, after, rfl⟩ := List.append_of_mem hmem
  have hbefore : ∀ f ∈ before, f.1 ≠ name := by
    intro f hf heq
    have hdistinct := h.distinct
    rw [List.map_append, List.nodup_append] at hdistinct
    exact hdistinct.2.2 f.1 (List.mem_map_of_mem hf) name List.mem_cons_self heq
  have hlookup : (written (before ++ (name, w) :: after)).lookup name = some w.raw := by
    rw [List.lookup_eq_some_iff]
    refine ⟨written before, written after, by rw [written, List.map_append]; rfl, ?_⟩
    rw [written, List.forall_mem_map]
    intro f hf
    simpa using Ne.symm (hbefore f hf)
  rw [field?, hlookup]
  exact hdecode

end IsRecord

/-- A field that is not written has its default. -/
theorem field?_of_missing {α : Type} {decode : Raw → Option α} {default : α} {name : String}
    {fields : List (String × Json)} (hmissing : name ∉ fields.map (·.1)) :
    field? (written fields) name default decode = some default := by
  have hlookup : (written fields).lookup name = none := by
    rw [List.lookup_eq_none_iff, written, List.forall_mem_map]
    intro f hf
    have hne : name ≠ f.1 := by
      rintro rfl
      exact hmissing (List.mem_map_of_mem hf)
    simpa using hne
  rw [field?, hlookup]

end CustomFunctions.Json.Raw
