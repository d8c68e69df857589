import CustomFunctions.Files.Sources
import CustomFunctions.Proofs.Document.Unit

/-!
# Runs on a single file

A generation in which nothing clashes is left as it is by a merge. The generation of one file is such
a generation, so a run that is given the path of one file generates what the text of the file does. No
run comes so far if the limit on the size of files does not fit into 64 bits.

## Main definitions

- `Config.namedFileSize` — the limit on the size of files that the settings name
- `Generation.IsSettled` — nothing in the generation clashes
- `Generation.merge_singleton` — a merge of one settled generation is that generation
- `Generation.ofPaths_singleton` — when a run on one file is a run on its text
-/

namespace CustomFunctions

open FirstWins

-- ════════════════════════════════════════════════════════════════════════
-- The limit on the size of files
-- ════════════════════════════════════════════════════════════════════════

theorem checkedProduct?_eq_some {m n : UInt64} (h : m.toNat * n.toNat < UInt64.size) :
    ∃ product, checkedProduct? m n = some product ∧ product.toNat = m.toNat * n.toNat := by
  refine ⟨m * n, if_pos h, ?_⟩
  rw [UInt64.toNat_mul]
  exact Nat.mod_eq_of_lt h

theorem checkedProduct?_eq_none {m n : UInt64} (h : UInt64.size ≤ m.toNat * n.toNat) :
    checkedProduct? m n = none :=
  if_neg (Nat.not_lt.mpr h)

namespace Config

variable {c : Config}

/-- The greatest size of a source file in bytes that the settings name. -/
def namedFileSize (c : Config) : Nat :=
  c.limits.maxFileSizeMb.toNat * 1024 * 1024

/-- The size that is named can be computed if it fits into 64 bits. -/
theorem maxFileSize?_eq_some (h : c.namedFileSize < UInt64.size) :
    ∃ limit, c.maxFileSize? = some limit ∧ limit.toNat = c.namedFileSize := by
  have hkilo : c.limits.maxFileSizeMb.toNat * (1024 : UInt64).toNat < UInt64.size :=
    (Nat.le_mul_of_pos_right _ (by decide)).trans_lt h
  obtain ⟨kilo, hfirst, hvalue⟩ := checkedProduct?_eq_some hkilo
  have hmega : kilo.toNat * (1024 : UInt64).toNat < UInt64.size := by
    rw [hvalue]
    exact h
  obtain ⟨limit, hsecond, hlimit⟩ := checkedProduct?_eq_some hmega
  refine ⟨limit, ?_, hlimit.trans (congrArg (· * 1024) hvalue)⟩
  rw [maxFileSize?, hfirst]
  exact hsecond

/-- It cannot be computed otherwise. -/
theorem maxFileSize?_eq_none (h : UInt64.size ≤ c.namedFileSize) : c.maxFileSize? = none := by
  rw [maxFileSize?]
  by_cases hkilo : c.limits.maxFileSizeMb.toNat * (1024 : UInt64).toNat < UInt64.size
  · obtain ⟨kilo, hfirst, hvalue⟩ := checkedProduct?_eq_some hkilo
    rw [hfirst]
    refine checkedProduct?_eq_none ?_
    rw [hvalue]
    exact h
  · rw [checkedProduct?_eq_none (Nat.not_lt.mp hkilo)]
    rfl

end Config

-- ════════════════════════════════════════════════════════════════════════
-- Settled generations
-- ════════════════════════════════════════════════════════════════════════

namespace Generation

/-- The associations belong to the functions, and no two functions and no two enums clash. -/
structure IsSettled (g : Generation) : Prop where
  parallel : g.IsParallel
  functions : (g.offers 0).Pairwise fun a b => ¬ a.Clashes b
  enums : g.document.enums.Pairwise fun d e => Text.lowerCase d.id ≠ Text.lowerCase e.id

theorem functionRows_singleton {g : Generation} (h : g.IsSettled) :
    functionRows [g] = (g.offers 0).map fun o => ⟨o, []⟩ := by
  have hoffers : allOffers [g] = g.offers 0 := List.append_nil _
  rw [functionRows, hoffers, ledger_of_pairwise Offer.Clashes h.functions (by simp)]

theorem enumRows_singleton {g : Generation} (h : g.IsSettled) :
    enumRows [g] = (g.enumOffers 0).map fun o => ⟨o, []⟩ := by
  have hoffers : allEnumOffers [g] = g.enumOffers 0 := List.append_nil _
  have hpairwise : (g.enumOffers 0).Pairwise fun a b => ¬ a.Clashes b :=
    List.pairwise_map.mpr h.enums
  rw [enumRows, hoffers, ledger_of_pairwise EnumOffer.Clashes hpairwise (by simp)]

/-- Offers without rivals are all kept. -/
theorem kept_unrivalled {α : Type} (xs : List α) :
    kept (xs.map fun x => (⟨x, []⟩ : Row α)) = xs := by
  have hall : ∀ row ∈ xs.map fun x => (⟨x, []⟩ : Row α), row.isKept = true := by
    simp [Row.isKept]
  rw [kept, List.filter_eq_self.mpr hall, List.map_map]
  exact List.map_id _

/-- A merge leaves a settled generation as it is. -/
theorem merge_singleton {g : Generation} (h : g.IsSettled) : merge [g] = g := by
  have herrors : clashErrors [g] 0 = [] := by
    rw [clashErrors, functionRows_singleton h, enumRows_singleton h]
    simp [List.filter_map, List.flatMap_map, Offer.errors, EnumOffer.errors, Row.isKept]
  rw [merge_eq, functionRows_singleton h, enumRows_singleton h, kept_unrivalled, kept_unrivalled,
    h.parallel.offers_entries, h.parallel.offers_associations, enumOffers_entries]
  simp [herrors]

theorem ofUnit_isSettled (flags : DocumentFlags) (unit : SourceUnit) :
    (ofUnit flags unit).IsSettled :=
  ⟨ofUnit_isParallel flags unit, ofUnit_offers_pairwise flags unit 0,
    ofUnit_enum_ids_pairwise flags unit⟩

/-- What is generated from a text is settled. -/
theorem ofText_isSettled {config : Config} {path text : String} {g : Generation}
    (h : ofText config path text = .ok g) : g.IsSettled := by
  unfold ofText at h
  split at h
  · exact nomatch h
  · split at h
    · obtain rfl := Except.ok.inj h
      exact ofUnit_isSettled ..
    · exact nomatch h

-- ════════════════════════════════════════════════════════════════════════
-- Runs
-- ════════════════════════════════════════════════════════════════════════

variable {w : Workspace} {config : Config} {inputs paths : List String} {path text : String}
  {bytes : ByteArray}

/-- The path of a file stands for that file alone. -/
theorem sourcePaths_file (h : w.entry path = .ok (.file bytes)) :
    w.sourcePaths config [path] = .ok [path] := by
  have hinput : w.inputPaths config path = .ok [path] := by
    rw [Workspace.inputPaths, h]
  rw [Workspace.sourcePaths]
  simp [hinput]

/-- A run over no file fails. -/
theorem ofPaths_eq_noInputs (h : w.sourcePaths config inputs = .ok []) :
    ofPaths w config inputs = .error .noInputs := by
  rw [ofPaths, h]
  rfl

/-- A run over some files merges what they generate, in their order, if the limit on their size fits
into 64 bits. -/
theorem ofPaths_eq (h : w.sourcePaths config inputs = .ok paths) (hne : paths ≠ [])
    (hfits : config.namedFileSize < UInt64.size) :
    ofPaths w config inputs =
      (paths.mapM (ofPath w config config.namedFileSize)).map fun gs => merge (gs.filterMap id) := by
  obtain ⟨limit, hlimit, hvalue⟩ := Config.maxFileSize?_eq_some hfits
  rw [ofPaths, h]
  show (if paths = [] then _ else _) = _
  rw [if_neg hne, hlimit, ← hvalue]
  rfl

/-- A run over some files breaks off if the limit does not fit. -/
theorem ofPaths_eq_overflow (h : w.sourcePaths config inputs = .ok paths) (hne : paths ≠ [])
    (hlimit : UInt64.size ≤ config.namedFileSize) : ofPaths w config inputs = .error .overflow := by
  rw [ofPaths, h]
  show (if paths = [] then _ else _) = _
  rw [if_neg hne, Config.maxFileSize?_eq_none hlimit]
  rfl

/-- A file that is not too large and can be read generates what its text does. -/
theorem ofPath_file {limit : Nat} (hentry : w.entry path = .ok (.file bytes))
    (hsize : bytes.size ≤ limit) (htext : w.text path = .ok text) :
    ofPath w config limit path = (ofText config path text).map some := by
  rw [ofPath, hentry]
  show (if _ then _ else _) = _
  rw [if_neg (Nat.not_lt.mpr hsize), htext]

/-- Nothing overflows while a text is generated. -/
theorem ofText_ne_overflow (config : Config) (path text : String) :
    ofText config path text ≠ .error .overflow := by
  unfold ofText
  split
  · nofun
  · split <;> nofun

/-- A run on one file that is not too large and can be read is a run on its text, if the limit fits
into 64 bits. -/
theorem ofPaths_file (hentry : w.entry path = .ok (.file bytes))
    (hsize : bytes.size ≤ config.namedFileSize) (htext : w.text path = .ok text)
    (hfits : config.namedFileSize < UInt64.size) :
    ofPaths w config [path] = ofText config path text := by
  rw [ofPaths_eq (sourcePaths_file hentry) (List.cons_ne_nil _ _) hfits, List.mapM_cons,
    List.mapM_nil, ofPath_file hentry hsize htext]
  cases hgeneration : ofText config path text with
  | error failure => rfl
  | ok g => exact congrArg Except.ok (merge_singleton (ofText_isSettled hgeneration))

/-- Merging the generation of one file gives that generation, and so a run on one file that is not
too large and can be read is a run on its text; unless the limit on its size does not fit into 64 bits,
for then the run breaks off. -/
theorem ofPaths_singleton (config : Config) :
    (∀ unit, merge [ofUnit config.metadata unit] = ofUnit config.metadata unit) ∧
    ∀ (w : Workspace) (path text : String) (bytes : ByteArray),
      w.entry path = .ok (.file bytes) → bytes.size ≤ config.namedFileSize →
        w.text path = .ok text →
          (ofPaths w config [path] = ofText config path text ↔
            config.namedFileSize < UInt64.size) ∧
          (UInt64.size ≤ config.namedFileSize → ofPaths w config [path] = .error .overflow) := by
  refine ⟨fun unit => merge_singleton (ofUnit_isSettled _ unit), ?_⟩
  intro w path text bytes hentry hsize htext
  have hoverflow : UInt64.size ≤ config.namedFileSize → ofPaths w config [path] = .error .overflow :=
    ofPaths_eq_overflow (sourcePaths_file hentry) (List.cons_ne_nil _ _)
  refine ⟨⟨fun heq => Nat.not_le.mp fun hlimit => ?_, ofPaths_file hentry hsize htext⟩, hoverflow⟩
  rw [hoverflow hlimit] at heq
  exact ofText_ne_overflow config path text heq.symm

/-- A folder with a single source file. -/
def folderOf (text : String) : Workspace where
  root := .file "add.ts" text.toUTF8 .empty

/-- A run on the only file of a folder generates the function that its text declares. -/
theorem ofPaths_singleton_addition :
    let text := "/** @customfunction */ function add() {}"
    (folderOf text).entry "add.ts" = .ok (.file text.toUTF8) ∧
      text.toUTF8.size ≤ ({} : Config).namedFileSize ∧
      (folderOf text).text "add.ts" = .ok text ∧
      ofPaths (folderOf text) {} ["add.ts"] = ofText {} "add.ts" text ∧
      (ofText {} "add.ts" text).toOption.map (·.associations) = some [⟨"ADD", "add"⟩] := by
  intro text
  have hentry : (folderOf text).entry "add.ts" = .ok (.file text.toUTF8) := rfl
  have hsize : text.toUTF8.size ≤ ({} : Config).namedFileSize := by decide +kernel
  have htext : (folderOf text).text "add.ts" = .ok text := by decide +kernel
  have hfits : ({} : Config).namedFileSize < UInt64.size := by decide +kernel
  exact ⟨hentry, hsize, htext, ((ofPaths_singleton {}).2 _ _ _ _ hentry hsize htext).1.mpr hfits,
    by decide +kernel⟩

/-- There are settings that name a limit far above the size of a file, and no run on the file comes to
an end. -/
theorem not_forall_ofPaths_singleton :
    ¬ ∀ (settings : String) (config : Config), Config.read? settings = some config →
      ∀ (w : Workspace) (path text : String) (bytes : ByteArray),
        w.entry path = .ok (.file bytes) → bytes.size ≤ config.namedFileSize →
          w.text path = .ok text → ofPaths w config [path] = ofText config path text := by
  intro h
  let config : Config := { limits := { maxFileSizeMb := 18446744073709551615 } }
  have hread : Config.read? "\x7b\"limits\": \x7b\"maxFileSizeMb\": 18446744073709551615\x7d\x7d" =
      some config := by decide +kernel
  let text := "/** @customfunction */ function add() \x7b\x7d"
  have hentry : (folderOf text).entry "add.ts" = .ok (.file text.toUTF8) := rfl
  have hsize : text.toUTF8.size ≤ config.namedFileSize := by decide +kernel
  have hlimit : UInt64.size ≤ config.namedFileSize := by decide +kernel
  have heq := h _ config hread (folderOf text) "add.ts" text _ hentry hsize (by decide +kernel)
  rw [ofPaths_eq_overflow (sourcePaths_file hentry) (List.cons_ne_nil _ _) hlimit] at heq
  exact ofText_ne_overflow config "add.ts" text heq.symm

end Generation

end CustomFunctions
