import CustomFunctions.Proofs.Document.Unit

/-!
# Functions left out without an owner

The functions of a file are reviewed before files are merged, so what the reviews keep may be left
out by the merge. A function that was rejected in favour of it is then left out although no merged
function needs to hold its id or its name.

## Main definitions

- `FunctionEntry.SharesKey` — a merged function holds the id or the name of a signature
- `Generation.exists_owner_iff` — when a function that could be accepted has an owner of its keys
-/

namespace CustomFunctions

open FirstWins

/-- The function has the id, in any letter case, or the name of the signature. -/
def FunctionEntry.SharesKey (e : FunctionEntry) (f : Signature) : Prop :=
  Text.lowerCase e.id = Text.lowerCase f.id ∨ e.name = f.name

instance (e : FunctionEntry) (f : Signature) : Decidable (e.SharesKey f) :=
  inferInstanceAs (Decidable (Text.lowerCase e.id = Text.lowerCase f.id ∨ e.name = f.name))

/-- A function without parameters whose comment is the given tag. -/
def FunctionDecl.ofTag (name tag : String) : FunctionDecl where
  name := name
  doc := some ⟨[tag], 1⟩
  parameters := []
  returnType? := none
  isAsync := false
  returnHints := []
  line := 2

namespace Generation

variable (flags : DocumentFlags)

/-- A further file adds its accepted functions that share no key with an earlier one. -/
theorem merge_concat_functions (before : List SourceUnit) (unit : SourceUnit) :
    (merge ((before ++ [unit]).map (ofUnit flags))).document.functions =
      (merge (before.map (ofUnit flags))).document.functions ++
        (unit.accepted.filter fun f =>
          ∀ e ∈ (merge (before.map (ofUnit flags))).document.functions, ¬ e.SharesKey f).map
            FunctionEntry.ofSignature := by
  have hpairwise := ofUnit_offers_pairwise flags unit (before.map (ofUnit flags)).length
  rw [List.map_append, List.map_singleton, merge_functions, functionRows_concat, kept_append,
    List.map_append, ← merge_functions, kept_of_pairwise _ hpairwise, ofUnit_offers,
    List.filter_map, List.map_map]
  refine congrArg (_ ++ List.map _ ·) (List.filter_congr fun f _ => decide_eq_decide.mpr ?_)
  rw [merge_functions, List.forall_mem_map]
  rfl

theorem exists_owner_append (xs ys : List FunctionEntry) (g : Signature) :
    (∃ e ∈ xs ++ ys, e.SharesKey g) ↔ (∃ e ∈ xs, e.SharesKey g) ∨ ∃ e ∈ ys, e.SharesKey g := by
  simp only [List.mem_append, or_and_right, exists_or]

/-- After a further file a signature has an owner among the functions of earlier files, or among the
accepted functions of the file that share no key with those. -/
theorem exists_owner_concat (before : List SourceUnit) (unit : SourceUnit) (g : Signature) :
    let earlier := (merge (before.map (ofUnit flags))).document.functions
    (∃ e ∈ (merge ((before ++ [unit]).map (ofUnit flags))).document.functions, e.SharesKey g) ↔
      (∃ e ∈ earlier, e.SharesKey g) ∨
        ∃ f ∈ unit.accepted, f.Clashes g ∧ ∀ e ∈ earlier, ¬ e.SharesKey f := by
  intro earlier
  rw [merge_concat_functions, exists_owner_append]
  refine or_congr_right ?_
  constructor
  · rintro ⟨_, he, hshares⟩
    obtain ⟨f, hf, rfl⟩ := List.mem_map.mp he
    obtain ⟨hf, hfirst⟩ := List.mem_filter.mp hf
    exact ⟨f, hf, hshares, of_decide_eq_true hfirst⟩
  · rintro ⟨f, hf, hclash, hfirst⟩
    exact ⟨_, List.mem_map_of_mem (List.mem_filter.mpr ⟨hf, decide_eq_true hfirst⟩), hclash⟩

/-- A function that could be accepted shares a key with an accepted function of its file. So it has
an owner in the merged document exactly if one of those that it shares a key with is not left out
because of an earlier file, or if a function of another file holds one of its keys. -/
theorem exists_owner_iff (before : List SourceUnit) (unit : SourceUnit) (after : List SourceUnit)
    {c : Candidate} (hc : c ∈ unit.candidates) (hclean : c.IsClean) :
    let earlier := (merge (before.map (ofUnit flags))).document.functions
    let soFar := (merge ((before ++ [unit]).map (ofUnit flags))).document.functions
    let merged := (merge ((before ++ unit :: after).map (ofUnit flags))).document.functions
    (∃ f ∈ unit.accepted, f.Clashes c.signature) ∧
      ((∃ e ∈ merged, e.SharesKey c.signature) ↔
        (∃ f ∈ unit.accepted, f.Clashes c.signature ∧ ∀ e ∈ earlier, ¬ e.SharesKey f) ∨
          ∃ e ∈ earlier ++ merged.drop soFar.length, e.SharesKey c.signature) := by
  intro earlier soFar merged
  refine ⟨Review.exists_accepted_clash hc hclean, ?_⟩
  have hunits : (before ++ unit :: after).map (ofUnit flags) =
      (before ++ [unit]).map (ofUnit flags) ++ after.map (ofUnit flags) := by
    simp
  -- what later files add comes behind all that is merged up to this one
  obtain ⟨later, hlater⟩ : soFar <+: merged := by
    show _ <+: (merge ((before ++ unit :: after).map (ofUnit flags))).document.functions
    rw [hunits]
    exact merge_functions_prefix _ _
  have hdrop : merged.drop soFar.length = later := by
    rw [← hlater, List.drop_left]
  have hsoFar : (∃ e ∈ soFar, e.SharesKey c.signature) ↔ _ :=
    exists_owner_concat flags before unit c.signature
  rw [hdrop, ← hlater, exists_owner_append, exists_owner_append, hsoFar, or_assoc, or_left_comm]

/-- A file with the only function `first`. -/
def firstFile : SourceUnit where
  path := "a.ts"
  language := .typeScript
  functions := [.ofTag "first" "@customfunction ID1 NAME1"]
  enums := []

/-- A file whose function `second` clashes with `first` and with `third`. -/
def secondFile : SourceUnit where
  path := "b.ts"
  language := .typeScript
  functions := [.ofTag "second" "@customfunction ID1 NAME2", .ofTag "third" "@customfunction ID3 NAME2"]
  enums := []

/-- Nothing that is merged holds a key of `third`. -/
theorem exists_owner_iff_third :
    ∃ c ∈ secondFile.candidates, c.IsClean ∧ c.signature.codeName = "third" ∧
      (∃ f ∈ secondFile.accepted, f.Clashes c.signature) ∧
        ¬ ∃ e ∈ (merge ([firstFile, secondFile].map (ofUnit {}))).document.functions,
          e.SharesKey c.signature := by
  obtain ⟨c, hc, hclean, hname, hnone⟩ : ∃ c ∈ secondFile.candidates,
      c.IsClean ∧ c.signature.codeName = "third" ∧
        ¬ ((∃ f ∈ secondFile.accepted, f.Clashes c.signature ∧
            ∀ e ∈ (merge ([firstFile].map (ofUnit {}))).document.functions, ¬ e.SharesKey f) ∨
          ∃ e ∈ (merge ([firstFile].map (ofUnit {}))).document.functions ++
            (merge ([firstFile, secondFile].map (ofUnit {}))).document.functions.drop
              (merge ([firstFile, secondFile].map (ofUnit {}))).document.functions.length,
            e.SharesKey c.signature) := by
    decide +kernel
  have howner := exists_owner_iff {} [firstFile] secondFile [] hc hclean
  exact ⟨c, hc, hclean, hname, howner.1, fun h => hnone (howner.2.mp h)⟩

/-- A function can be left out in favour of one that is left out itself. -/
theorem not_forall_exists_owner :
    ¬ ∀ (flags : DocumentFlags) (units : List SourceUnit), ∀ unit ∈ units,
      ∀ c ∈ unit.candidates, c.IsClean →
        FunctionEntry.ofSignature c.signature ∉
            (merge (units.map (ofUnit flags))).document.functions →
          ∃ e ∈ (merge (units.map (ofUnit flags))).document.functions,
            e.SharesKey c.signature := by
  intro h
  have hfiles := h {} [firstFile, secondFile]
  revert hfiles
  decide +kernel

end Generation

end CustomFunctions
