import CustomFunctions.Json.Basic
import Mathlib.Data.List.Perm.Basic

/-!
# Sorting the fields of objects

Sorting puts the fields of every object into the order of their keys. A value whose objects have no
key twice keeps all its fields: only their order changes.

## Main definitions

- `Json.DistinctKeys` — no object of the value has a key twice
- `Json.sortedFields_perm` — sorting rearranges the fields of such an object
-/

namespace CustomFunctions.Json

/-- No object of the value has a key twice. -/
inductive DistinctKeys : Json → Prop
  | null : DistinctKeys .null
  | bool (b : Bool) : DistinctKeys (.bool b)
  | int (i : Int) : DistinctKeys (.int i)
  | real (x : Binary64) : DistinctKeys (.real x)
  | string (s : String) : DistinctKeys (.string s)
  | array {items : List Json} (h : ∀ v ∈ items, v.DistinctKeys) : DistinctKeys (.array items)
  | object {fields : List (String × Json)} (keys : (fields.map (·.1)).Nodup)
      (h : ∀ f ∈ fields, f.2.DistinctKeys) : DistinctKeys (.object fields)

theorem insertField_perm {key : String} {fields : List (String × Json)}
    (h : key ∉ fields.map (·.1)) (v : Json) :
    (insertField key v fields).Perm ((key, v) :: fields) := by
  induction fields with
  | nil => exact .refl _
  | cons f rest ih =>
    obtain ⟨k, w⟩ := f
    rw [List.map_cons, List.mem_cons, not_or] at h
    rw [insertField]
    split
    · exact .refl _
    · rw [if_neg (Ne.symm h.1)]
      exact ((ih h.2).cons _).trans (.swap _ _ _)

theorem sortedItems_eq_map (items : List Json) : sortedItems items = items.map sorted := by
  induction items with
  | nil => rfl
  | cons v rest ih => rw [sortedItems, ih, List.map_cons]

theorem sorted_array (items : List Json) :
    (Json.array items).sorted = .array (items.map sorted) := by
  rw [sorted, sortedItems_eq_map]

theorem sortedFields_perm (done fields : List (String × Json))
    (h : ((done ++ fields).map (·.1)).Nodup) :
    (sortedFields done fields).Perm (done ++ fields.map fun f => (f.1, f.2.sorted)) := by
  induction fields generalizing done with
  | nil => simp [sortedFields]
  | cons f rest ih =>
    obtain ⟨k, v⟩ := f
    have hkey : k ∉ done.map (·.1) := by
      intro hk
      rw [List.map_append, List.nodup_append] at h
      exact h.2.2 k hk k (by simp) rfl
    have hinsert := insertField_perm hkey v.sorted
    have hnext : ((insertField k v.sorted done ++ rest).map (·.1)).Nodup := by
      refine (((hinsert.append_right rest).map _).nodup_iff).mpr ?_
      rw [List.map_append, List.map_cons] at h
      rw [List.cons_append, List.map_cons, List.map_append]
      exact (List.perm_middle.nodup_iff).mp h
    rw [sortedFields]
    refine (ih _ hnext).trans ?_
    rw [List.map_cons]
    exact (hinsert.append_right _).trans List.perm_middle.symm

/-- The sorted fields of an object without repeated keys are its fields with sorted values. -/
theorem sorted_object {fields : List (String × Json)} (h : (fields.map (·.1)).Nodup) :
    ∃ fields', (Json.object fields).sorted = .object fields' ∧
      fields'.Perm (fields.map fun f => (f.1, f.2.sorted)) :=
  ⟨sortedFields [] fields, by rw [sorted], sortedFields_perm [] fields h⟩

end CustomFunctions.Json
