import CustomFunctions.Document.Generation

/-!
# Generations only grow

Whatever is added to a generation comes behind what is there: none of its lists loses an entry or
has one moved. So a merge of some generations is the beginning of every merge that goes on from them.

## Main definitions

- `Generation.IsPrefix` — all lists of a generation are beginnings of those of another one
- `Generation.merge_isPrefix` — merging further generations only adds to the lists
-/

namespace CustomFunctions.Generation

/-- Every list of the first generation is the beginning of that of the second one. -/
structure IsPrefix (g g' : Generation) : Prop where
  functions : g.document.functions <+: g'.document.functions
  enums : g.document.enums <+: g'.document.enums
  associations : g.associations <+: g'.associations
  diagnostics : g.diagnostics <+: g'.diagnostics
  inputs : g.inputs <+: g'.inputs

theorem IsPrefix.refl (g : Generation) : g.IsPrefix g :=
  ⟨List.prefix_rfl, List.prefix_rfl, List.prefix_rfl, List.prefix_rfl, List.prefix_rfl⟩

theorem IsPrefix.trans {a b c : Generation} (hab : a.IsPrefix b) (hbc : b.IsPrefix c) :
    a.IsPrefix c where
  functions := hab.functions.trans hbc.functions
  enums := hab.enums.trans hbc.enums
  associations := hab.associations.trans hbc.associations
  diagnostics := hab.diagnostics.trans hbc.diagnostics
  inputs := hab.inputs.trans hbc.inputs

-- ════════════════════════════════════════════════════════════════════════
-- One step
-- ════════════════════════════════════════════════════════════════════════

theorem addHeader_isPrefix (g next : Generation) : g.IsPrefix (g.addHeader next) :=
  { IsPrefix.refl g with
    diagnostics := List.prefix_append _ _
    inputs := List.prefix_append _ _ }

/-- A function is added behind all others, or its conflicts are reported behind all else. -/
theorem addFunction_isPrefix (file : Option String) (g : Generation) (f : FunctionEntry)
    (a : Association) : g.IsPrefix (g.addFunction file f a) := by
  unfold addFunction
  split
  · exact { IsPrefix.refl g with
      functions := List.prefix_append _ _
      associations := List.prefix_append _ _ }
  · exact { IsPrefix.refl g with diagnostics := List.prefix_append _ _ }

/-- An enum is added behind all others, or it is reported behind all else. -/
theorem addEnum_isPrefix (file : Option String) (g : Generation) (e : EnumEntry) :
    g.IsPrefix (g.addEnum file e) := by
  unfold addEnum
  split
  · exact { IsPrefix.refl g with diagnostics := List.prefix_append _ _ }
  · exact { IsPrefix.refl g with enums := List.prefix_append _ _ }

-- ════════════════════════════════════════════════════════════════════════
-- Runs
-- ════════════════════════════════════════════════════════════════════════

/-- Steps that only add make a run that only adds. -/
theorem foldl_isPrefix {α : Type} {step : Generation → α → Generation}
    (hstep : ∀ (g : Generation) (x : α), g.IsPrefix (step g x)) (g : Generation) (xs : List α) :
    g.IsPrefix (xs.foldl step g) := by
  induction xs generalizing g with
  | nil => exact .refl g
  | cons x xs ih => exact (hstep g x).trans (ih _)

theorem add_isPrefix (g next : Generation) : g.IsPrefix (g.add next) :=
  ((addHeader_isPrefix g next).trans
    (foldl_isPrefix (fun g (f, a) => addFunction_isPrefix _ g f a) _ _)).trans
    (foldl_isPrefix (addEnum_isPrefix _) _ _)

/-- Merging further generations only adds to the lists. -/
theorem merge_isPrefix (gs more : List Generation) : (merge gs).IsPrefix (merge (gs ++ more)) := by
  rw [merge, merge, List.foldl_append]
  exact foldl_isPrefix add_isPrefix _ _

end CustomFunctions.Generation
