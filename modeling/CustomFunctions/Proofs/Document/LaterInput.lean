import CustomFunctions.Proofs.Document.Orphans
import CustomFunctions.Proofs.Document.Selection

/-!
# Later input

What comes later in the input leaves alone what has been generated before it: further functions in a
file, and further files. A file that is given again changes nothing in the document, since each of
its functions and enums clashes with one that is kept, be it itself.

## Main definitions

- `SourceUnit.withMore` — a file with further functions at its end
- `Generation.later_input_keeps_output` — what is generated first stays as it is
-/

namespace CustomFunctions

open FirstWins

/-- The file with further functions at its end. -/
def SourceUnit.withMore (unit : SourceUnit) (more : List FunctionDecl) : SourceUnit :=
  { unit with functions := unit.functions ++ more }

namespace Generation

-- ════════════════════════════════════════════════════════════════════════
-- Further functions in a file
-- ════════════════════════════════════════════════════════════════════════

/-- Further functions are reviewed after those that were there before. -/
theorem reviews_prefix (unit : SourceUnit) (more : List FunctionDecl) :
    reviews unit <+: reviews (unit.withMore more) := by
  have hcandidates : (unit.withMore more).candidates =
      unit.candidates ++ more.filterMap (Candidate.ofDecl? unit.registry) :=
    List.filterMap_append
  show Review.all .empty unit.candidates <+: Review.all .empty (unit.withMore more).candidates
  rw [hcandidates]
  exact ⟨_, (Review.all_append [] _ _).symm⟩

/-- Further functions of a file leave its generation as the beginning of the new one. -/
theorem ofUnit_isPrefix (flags : DocumentFlags) (unit : SourceUnit) (more : List FunctionDecl) :
    (ofUnit flags unit).IsPrefix (ofUnit flags (unit.withMore more)) := by
  have hreviews := reviews_prefix unit more
  have haccepted := (hreviews.filter Review.isAccepted).map (·.signature)
  have hfound : (reviews unit).flatMap (·.diagnostics) <+:
      (reviews (unit.withMore more)).flatMap (·.diagnostics) := by
    obtain ⟨rest, hrest⟩ := hreviews
    rw [← hrest, List.flatMap_append]
    exact List.prefix_append _ _
  exact {
    functions := haccepted.map FunctionEntry.ofSignature
    enums := List.prefix_rfl
    associations := haccepted.map Association.ofSignature
    diagnostics := (List.prefix_append_right_inj _).mpr (hfound.map (·.inFile unit.displayPath))
    inputs := List.prefix_rfl }

-- ════════════════════════════════════════════════════════════════════════
-- Files that are given again
-- ════════════════════════════════════════════════════════════════════════

/-- A function of a merged generation clashes with one that is kept. -/
theorem exists_kept_function {gs : List Generation} {g : Generation} (hg : g ∈ gs) {i : Nat}
    {o : Offer} (ho : o ∈ g.offers i) : ∃ k ∈ kept (functionRows gs), k.Clashes o := by
  obtain ⟨⟨f, a⟩, hmem, rfl⟩ := List.mem_map.mp ho
  obtain ⟨j, hj, rfl⟩ := List.getElem_of_mem hg
  -- the same function, offered where the generation stands
  let own : Offer := ⟨j, gs[j].inputs.head?, f, a⟩
  have hown : own ∈ allOffers gs := mem_batches.mpr ⟨j, hj, List.mem_map_of_mem hmem⟩
  by_cases hkept : own ∈ kept (functionRows gs)
  · exact ⟨own, hkept, Claim.Clashes.refl _⟩
  · obtain ⟨k, hk, hclash⟩ := exists_kept_clash Offer.Clashes [] hown hkept
    exact ⟨k, hk, hclash⟩

/-- An enum of a merged generation clashes with one that is kept. -/
theorem exists_kept_enum {gs : List Generation} {g : Generation} (hg : g ∈ gs) {i : Nat}
    {o : EnumOffer} (ho : o ∈ g.enumOffers i) : ∃ k ∈ kept (enumRows gs), k.Clashes o := by
  obtain ⟨e, hmem, rfl⟩ := List.mem_map.mp ho
  obtain ⟨j, hj, rfl⟩ := List.getElem_of_mem hg
  let own : EnumOffer := ⟨j, gs[j].inputs.head?, e⟩
  have hown : own ∈ allEnumOffers gs := mem_batches.mpr ⟨j, hj, List.mem_map_of_mem hmem⟩
  by_cases hkept : own ∈ kept (enumRows gs)
  · exact ⟨own, hkept, rfl⟩
  · obtain ⟨k, hk, hclash⟩ := exists_kept_clash EnumOffer.Clashes [] hown hkept
    exact ⟨k, hk, hclash⟩

/-- A flag that one of the generations sets already is not changed by it. -/
theorem any_concat_of_mem {gs : List Generation} {g : Generation} (hg : g ∈ gs)
    (flag : Generation → Bool) : (gs ++ [g]).any flag = gs.any flag := by
  rw [List.any_append, List.any_cons, List.any_nil, Bool.or_false]
  cases hflag : flag g with
  | false => exact Bool.or_false _
  | true => rw [List.any_eq_true.mpr ⟨g, hg, hflag⟩]; rfl

/-- Merging a generation once more leaves the document as it is. -/
theorem merge_concat_document {gs : List Generation} {g : Generation} (hg : g ∈ gs) :
    (merge (gs ++ [g])).document = (merge gs).document := by
  have hfunctions : kept (functionRows (gs ++ [g])) = kept (functionRows gs) := by
    rw [functionRows_concat, kept_append,
      kept_ledger_of_clash Offer.Clashes fun _ ho => exists_kept_function hg ho, List.append_nil]
  have henums : kept (enumRows (gs ++ [g])) = kept (enumRows gs) := by
    rw [enumRows_concat, kept_append,
      kept_ledger_of_clash EnumOffer.Clashes fun _ ho => exists_kept_enum hg ho, List.append_nil]
  rw [merge_eq, merge_eq, hfunctions, henums, any_concat_of_mem hg, any_concat_of_mem hg]

/-- Merging generations once more leaves the document as it is. -/
theorem merge_append_document (gs : List Generation) {again : List Generation}
    (h : ∀ g ∈ again, g ∈ gs) : (merge (gs ++ again)).document = (merge gs).document := by
  induction again using List.reverseRecOn with
  | nil => rw [List.append_nil]
  | append_singleton again g ih =>
    have hg : g ∈ gs ++ again := List.mem_append_left _ (h g (by simp))
    rw [← List.append_assoc, merge_concat_document hg]
    exact ih fun g' hg' => h g' (List.mem_append_left _ hg')

/-- Later input never disturbs what is generated from earlier input: further functions of a file and
further files only add to the lists, and files that are given again leave the document as it is. -/
theorem later_input_keeps_output :
    (∀ (flags : DocumentFlags) (unit : SourceUnit) (more : List FunctionDecl),
      (ofUnit flags unit).IsPrefix (ofUnit flags (unit.withMore more))) ∧
    (∀ gs more : List Generation, (merge gs).IsPrefix (merge (gs ++ more))) ∧
    ∀ gs again : List Generation, (∀ g ∈ again, g ∈ gs) →
      (merge (gs ++ again)).document = (merge gs).document :=
  ⟨ofUnit_isPrefix, merge_isPrefix, fun gs _ h => merge_append_document gs h⟩

/-- A file all of whose functions have been left out may be given again. -/
theorem later_input_keeps_output_second :
    let first := ofUnit {} firstFile
    let second := ofUnit {} secondFile
    (∀ g ∈ [second], g ∈ [first, second]) ∧
      second.document.functions.length = 1 ∧
      (merge [first, second]).document.functions.length = 1 ∧
      (merge ([first, second] ++ [second])).document = (merge [first, second]).document := by
  intro first second
  have hagain : ∀ g ∈ [second], g ∈ [first, second] := by simp
  exact ⟨hagain, by decide +kernel, by decide +kernel,
    later_input_keeps_output.2.2 [first, second] [second] hagain⟩

end Generation

end CustomFunctions
