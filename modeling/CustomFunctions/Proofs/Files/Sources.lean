import CustomFunctions.Files.Sources
import CustomFunctions.Proofs.Document.SingleFile
import CustomFunctions.Proofs.Failure
import CustomFunctions.Proofs.Files.Folder

/-!
# What keeps inputs from being generated

A run generates something from its inputs unless one of a few things stands in the way: a pattern that
is invalid, inputs that stand for no file, and files that are missing or cannot be read. A file counts
only if it is not too large. If the inputs stand for files and the limit on their size does not fit into
64 bits, the run breaks off.

## Main definitions

- `Workspace.IsSource` — the files that the inputs stand for
- `Generation.IsPassed` — a file that keeps no run from coming to an end
- `Generation.Obstacle` — what keeps a run from generating anything
- `Generation.Overflows` — when a run breaks off
- `Generation.exists_ofPaths_eq_ok` — nothing else keeps a run from generating something
-/

namespace CustomFunctions

namespace Workspace

variable {w : Workspace} {config : Config}

theorem exists_compilePatterns_eq_ok {texts : List String} :
    (∃ patterns, compilePatterns texts = .ok patterns) ↔
      ∀ text ∈ texts, ∃ pattern, Glob.compile text = .ok pattern := by
  rw [← exists_mapM_eq_ok, compilePatterns]
  cases texts.mapM Glob.compile with
  | error e => exact ⟨fun ⟨_, h⟩ => (nomatch h), fun ⟨_, h⟩ => (nomatch h)⟩
  | ok patterns => exact ⟨fun _ => ⟨patterns, rfl⟩, fun _ => ⟨patterns, rfl⟩⟩

/-- A folder can be searched if all patterns are valid. -/
theorem exists_folderPaths_eq_ok {path : String} {contents : Folder} :
    (∃ paths, folderPaths config path contents = .ok paths) ↔
      ∀ text ∈ config.included ++ config.excluded, ∃ pattern, Glob.compile text = .ok pattern := by
  rw [folderPaths, exists_bind_eq_ok, List.forall_mem_append, ← exists_compilePatterns_eq_ok,
    ← exists_compilePatterns_eq_ok]
  constructor
  · rintro ⟨included, hincluded, h⟩
    obtain ⟨excluded, hexcluded, _⟩ := exists_bind_eq_ok.mp h
    exact ⟨⟨included, hincluded⟩, excluded, hexcluded⟩
  · rintro ⟨⟨included, hincluded⟩, excluded, hexcluded⟩
    exact ⟨included, hincluded, exists_bind_eq_ok.mpr ⟨excluded, hexcluded, _, rfl⟩⟩

theorem exists_inputPaths_eq_ok {input : String} :
    (∃ paths, w.inputPaths config input = .ok paths) ↔
      ∀ contents, w.entry input = .ok (.folder contents) →
        ∀ text ∈ config.included ++ config.excluded, ∃ pattern, Glob.compile text = .ok pattern := by
  rw [inputPaths]
  split
  · next contents hentry =>
    rw [exists_folderPaths_eq_ok]
    exact ⟨fun h _ _ => h, fun h => h contents hentry⟩
  · next hfolder => exact ⟨fun _ contents hentry => absurd hentry (hfolder contents), fun _ => ⟨_, rfl⟩⟩

theorem exists_sourcePaths_eq_ok {inputs : List String} :
    (∃ paths, w.sourcePaths config inputs = .ok paths) ↔
      ∀ input ∈ inputs, ∃ paths, w.inputPaths config input = .ok paths := by
  rw [sourcePaths, exists_bind_eq_ok, ← exists_mapM_eq_ok]
  exact exists_congr fun _ => and_iff_left ⟨_, rfl⟩

theorem compilePatterns_ne_overflow (texts : List String) :
    compilePatterns texts ≠ .error .overflow := by
  rw [compilePatterns]
  cases texts.mapM Glob.compile <;> nofun

/-- Nothing overflows while a folder is searched. -/
theorem sourcePaths_ne_overflow {inputs : List String} :
    w.sourcePaths config inputs ≠ .error .overflow := by
  intro h
  obtain h | ⟨_, _, h⟩ := bind_eq_error.mp h
  · obtain ⟨input, _, hinput⟩ := exists_of_mapM_eq_error h
    rw [inputPaths] at hinput
    split at hinput
    · obtain h | ⟨_, _, hinput⟩ := bind_eq_error.mp hinput
      · exact compilePatterns_ne_overflow _ h
      obtain h | ⟨_, _, hinput⟩ := bind_eq_error.mp hinput
      · exact compilePatterns_ne_overflow _ h
      · cases hinput
    · cases hinput
  · cases h

/-- One of the inputs stands for the file at the path, alone or among others. -/
def IsSource (w : Workspace) (config : Config) (inputs : List String) (path : String) : Prop :=
  ∃ input ∈ inputs, ∃ paths, w.inputPaths config input = .ok paths ∧ path ∈ paths

theorem mem_sourcePaths {inputs paths : List String} {path : String}
    (h : w.sourcePaths config inputs = .ok paths) : path ∈ paths ↔ w.IsSource config inputs path := by
  obtain ⟨lists, hlists, h⟩ := bind_eq_ok.mp h
  obtain rfl := Except.ok.inj h
  simp only [IsSource, List.mem_flatten, mem_of_mapM_eq_ok hlists]
  constructor
  · rintro ⟨paths, ⟨input, hinput, hpaths⟩, hmem⟩
    exact ⟨input, hinput, paths, hpaths, hmem⟩
  · rintro ⟨input, hinput, paths, hpaths, hmem⟩
    exact ⟨paths, ⟨input, hinput, hpaths⟩, hmem⟩

end Workspace

namespace Generation

variable {w : Workspace} {config : Config} {inputs : List String} {path text : String}

/-- What keeps a run from generating anything from its inputs. Files that are larger than the settings
name do not count. -/
inductive Obstacle (w : Workspace) (config : Config) (inputs : List String) : Prop
  /-- There is a folder to be searched, and a pattern for its files is invalid. -/
  | pattern {input : String} {contents : Folder} {text : String} {error : PatternError}
      (hinput : input ∈ inputs) (hfolder : w.entry input = .ok (.folder contents))
      (htext : text ∈ config.included ++ config.excluded) (h : Glob.compile text = .error error)
  /-- The inputs stand for no file. -/
  | noInputs (h : w.sourcePaths config inputs = .ok [])
  /-- There is no file. -/
  | missing {path : String} (hpath : w.IsSource config inputs path)
      (h : ∀ bytes, w.entry path ≠ .ok (.file bytes))
  /-- The bytes of a file are no text. -/
  | notText {path : String} {bytes : ByteArray} (hpath : w.IsSource config inputs path)
      (hfile : w.entry path = .ok (.file bytes)) (hsize : bytes.size ≤ config.namedFileSize)
      (h : String.fromUTF8? bytes = none)
  /-- The extension of a file is that of no language. -/
  | unsupported {path : String} {bytes : ByteArray} (hpath : w.IsSource config inputs path)
      (hfile : w.entry path = .ok (.file bytes)) (hsize : bytes.size ≤ config.namedFileSize)
      (h : Language.ofPath? path = none)
  /-- The text of a file is no program. -/
  | syntaxError {path text : String} {bytes : ByteArray} {language : Language} {line : Nat}
      (hpath : w.IsSource config inputs path) (hfile : w.entry path = .ok (.file bytes))
      (hsize : bytes.size ≤ config.namedFileSize) (htext : String.fromUTF8? bytes = some text)
      (hlanguage : Language.ofPath? path = some language)
      (h : SourceUnit.ofText path language text = .error line)

/-- The inputs stand for files, and the limit on their size does not fit into 64 bits. -/
structure Overflows (w : Workspace) (config : Config) (inputs : List String) : Prop where
  sources : ∃ paths, w.sourcePaths config inputs = .ok paths ∧ paths ≠ []
  limit : UInt64.size ≤ config.namedFileSize

/-- Such a run breaks off. -/
theorem Overflows.ofPaths_eq (h : Overflows w config inputs) :
    ofPaths w config inputs = .error .overflow := by
  obtain ⟨paths, hpaths, hne⟩ := h.sources
  exact ofPaths_eq_overflow hpaths hne h.limit

theorem exists_ofText_eq_ok :
    (∃ g, ofText config path text = .ok g) ↔
      ∃ language, Language.ofPath? path = some language ∧
        ∃ unit, SourceUnit.ofText path language text = .ok unit := by
  unfold ofText
  cases hlanguage : Language.ofPath? path with
  | none => exact ⟨fun ⟨_, h⟩ => (nomatch h), fun ⟨_, h, _⟩ => (nomatch h)⟩
  | some language =>
    cases hunit : SourceUnit.ofText path language text with
    | error line => simp [hunit]
    | ok unit => simp [hunit]

/-- A file that keeps no run from coming to an end: it is too large to be taken, or something is
generated from its text. -/
def IsPassed (limit : Nat) (w : Workspace) (config : Config) (path : String) : Prop :=
  ∃ bytes, w.entry path = .ok (.file bytes) ∧ (bytes.size ≤ limit →
    ∃ text, String.fromUTF8? bytes = some text ∧ ∃ g, ofText config path text = .ok g)

/-- A file is generated unless it is to be read and cannot be. -/
theorem exists_ofPath_eq_ok {limit : Nat} :
    (∃ g, ofPath w config limit path = .ok g) ↔ IsPassed limit w config path := by
  rw [ofPath, IsPassed]
  split
  · next hentry => simp [hentry]
  · next hentry => simp [hentry]
  · next bytes hentry =>
    split
    · next hsize => simp [hentry, Nat.not_le.mpr hsize]
    · next hsize =>
      rw [Nat.not_lt] at hsize
      rw [Workspace.text_eq hentry]
      cases hread : String.fromUTF8? bytes with
      | none => simp [hentry, hread, hsize]
      | some text =>
        cases hgeneration : ofText config path text with
        | error failure => simp [hentry, hread, hgeneration, hsize, Except.map]
        | ok g => simp [hentry, hread, hgeneration, hsize, Except.map]

/-- What is generated from a file that is not too large is generated from its text. -/
theorem ofPath_eq_some_iff {limit : Nat} {g : Generation} :
    ofPath w config limit path = .ok (some g) ↔
      ∃ bytes text, w.entry path = .ok (.file bytes) ∧ bytes.size ≤ limit ∧
        w.text path = .ok text ∧ ofText config path text = .ok g := by
  rw [ofPath]
  split
  · next hentry => simp [hentry]
  · next hentry => simp [hentry]
  · next bytes hentry =>
    split
    · next hsize => simp [hentry, Nat.not_le.mpr hsize]
    · next hsize =>
      rw [Nat.not_lt] at hsize
      cases htext : w.text path with
      | error fault => simp
      | ok text =>
        cases hgeneration : ofText config path text with
        | error failure => simp [hgeneration, Except.map]
        | ok part => simp [hentry, hsize, hgeneration, Except.map]

/-- A run is one over some files, each of which is generated, with a limit that fits into 64 bits. -/
theorem ofPaths_eq_ok {g : Generation} :
    ofPaths w config inputs = .ok g ↔
      config.namedFileSize < UInt64.size ∧
        ∃ paths, w.sourcePaths config inputs = .ok paths ∧ paths ≠ [] ∧
          ∃ gs, paths.mapM (ofPath w config config.namedFileSize) = .ok gs ∧
            merge (gs.filterMap id) = g := by
  constructor
  · intro h
    obtain ⟨paths, hpaths, _⟩ := bind_eq_ok.mp h
    have hne : paths ≠ [] := by
      rintro rfl
      rw [ofPaths_eq_noInputs hpaths] at h
      cases h
    have hfits : config.namedFileSize < UInt64.size := by
      rw [← Nat.not_le]
      intro hlimit
      rw [ofPaths_eq_overflow hpaths hne hlimit] at h
      cases h
    rw [ofPaths_eq hpaths hne hfits] at h
    cases hgs : paths.mapM (ofPath w config config.namedFileSize) with
    | error failure => rw [hgs] at h; cases h
    | ok gs => rw [hgs] at h; exact ⟨hfits, paths, hpaths, hne, gs, hgs, Except.ok.inj h⟩
  · rintro ⟨hfits, paths, hpaths, hne, gs, hgs, rfl⟩
    rw [ofPaths_eq hpaths hne hfits, hgs]
    rfl

/-- What a run generates has one association for each function. -/
theorem ofPaths_isParallel {g : Generation} (h : ofPaths w config inputs = .ok g) :
    g.IsParallel := by
  obtain ⟨_, paths, _, _, gs, hgs, rfl⟩ := ofPaths_eq_ok.mp h
  refine merge_isParallel fun part hpart => ?_
  rw [List.mem_filterMap] at hpart
  obtain ⟨_, hmem, rfl⟩ := hpart
  obtain ⟨path, _, hpath⟩ := (mem_of_mapM_eq_ok hgs).mp hmem
  obtain ⟨_, _, _, _, _, htext⟩ := ofPath_eq_some_iff.mp hpath
  exact (ofText_isSettled htext).parallel

theorem exists_ofPaths_eq_ok_iff :
    (∃ g, ofPaths w config inputs = .ok g) ↔
      config.namedFileSize < UInt64.size ∧
        ∃ paths, w.sourcePaths config inputs = .ok paths ∧ paths ≠ [] ∧
          ∀ path ∈ paths, ∃ g, ofPath w config config.namedFileSize path = .ok g := by
  simp only [ofPaths_eq_ok, ← exists_mapM_eq_ok]
  constructor
  · rintro ⟨g, hfits, paths, hpaths, hne, gs, hgs, _⟩
    exact ⟨hfits, paths, hpaths, hne, gs, hgs⟩
  · rintro ⟨hfits, paths, hpaths, hne, gs, hgs⟩
    exact ⟨_, hfits, paths, hpaths, hne, gs, hgs, rfl⟩

/-- All sources of a run that generates something are generated. -/
theorem exists_ofPath_of_ofPaths {g : Generation} (h : ofPaths w config inputs = .ok g)
    (hpath : w.IsSource config inputs path) :
    ∃ part, ofPath w config config.namedFileSize path = .ok part := by
  obtain ⟨_, paths, hpaths, _, hall⟩ := exists_ofPaths_eq_ok_iff.mp ⟨g, h⟩
  exact hall path ((Workspace.mem_sourcePaths hpaths).mpr hpath)

/-- In such a run, a source that is not too large is generated from its text. -/
theorem exists_ofText_of_ofPaths {g : Generation} (h : ofPaths w config inputs = .ok g)
    (hpath : w.IsSource config inputs path) {bytes : ByteArray}
    (hfile : w.entry path = .ok (.file bytes)) (hsize : bytes.size ≤ config.namedFileSize) :
    ∃ text, String.fromUTF8? bytes = some text ∧ ∃ part, ofText config path text = .ok part := by
  obtain ⟨bytes', hfile', hread⟩ := exists_ofPath_eq_ok.mp (exists_ofPath_of_ofPaths h hpath)
  obtain rfl := Entry.file.inj (Except.ok.inj (hfile.symm.trans hfile'))
  exact hread hsize

/-- Nothing is generated if there is an obstacle. -/
theorem Obstacle.ofPaths_ne (h : Obstacle w config inputs) (g : Generation) :
    ofPaths w config inputs ≠ .ok g := by
  intro hg
  obtain ⟨_, paths, hpaths, hne, _⟩ := exists_ofPaths_eq_ok_iff.mp ⟨g, hg⟩
  cases h with
  | pattern hinput hfolder htext h =>
    have hinputs := Workspace.exists_sourcePaths_eq_ok.mp ⟨paths, hpaths⟩
    obtain ⟨pattern, hpattern⟩ :=
      Workspace.exists_inputPaths_eq_ok.mp (hinputs _ hinput) _ hfolder _ htext
    rw [h] at hpattern
    cases hpattern
  | noInputs h => exact hne (Except.ok.inj (hpaths.symm.trans h))
  | missing hpath h =>
    obtain ⟨bytes, hfile, _⟩ := exists_ofPath_eq_ok.mp (exists_ofPath_of_ofPaths hg hpath)
    exact h bytes hfile
  | notText hpath hfile hsize h =>
    obtain ⟨text, htext, _⟩ := exists_ofText_of_ofPaths hg hpath hfile hsize
    rw [h] at htext
    cases htext
  | unsupported hpath hfile hsize h =>
    obtain ⟨text, _, hpart⟩ := exists_ofText_of_ofPaths hg hpath hfile hsize
    obtain ⟨language, hlanguage, _⟩ := exists_ofText_eq_ok.mp hpart
    rw [h] at hlanguage
    cases hlanguage
  | syntaxError hpath hfile hsize htext hlanguage h =>
    obtain ⟨text, htext', hpart⟩ := exists_ofText_of_ofPaths hg hpath hfile hsize
    obtain rfl := Option.some.inj (htext.symm.trans htext')
    obtain ⟨language, hlanguage', unit, hunit⟩ := exists_ofText_eq_ok.mp hpart
    obtain rfl := Option.some.inj (hlanguage.symm.trans hlanguage')
    rw [h] at hunit
    cases hunit

/-- A source is generated if there is no obstacle. -/
theorem exists_ofPath_of_not_obstacle (hfree : ¬ Obstacle w config inputs)
    (hpath : w.IsSource config inputs path) :
    ∃ part, ofPath w config config.namedFileSize path = .ok part := by
  by_cases hmissing : ∀ bytes, w.entry path ≠ .ok (.file bytes)
  · exact absurd (.missing hpath hmissing) hfree
  push Not at hmissing
  obtain ⟨bytes, hfile⟩ := hmissing
  refine exists_ofPath_eq_ok.mpr ⟨bytes, hfile, fun hsize => ?_⟩
  cases htext : String.fromUTF8? bytes with
  | none => exact absurd (.notText hpath hfile hsize htext) hfree
  | some text =>
    refine ⟨text, rfl, exists_ofText_eq_ok.mpr ?_⟩
    cases hlanguage : Language.ofPath? path with
    | none => exact absurd (.unsupported hpath hfile hsize hlanguage) hfree
    | some language =>
      refine ⟨language, rfl, ?_⟩
      cases hunit : SourceUnit.ofText path language text with
      | error line => exact absurd (.syntaxError hpath hfile hsize htext hlanguage hunit) hfree
      | ok unit => exact ⟨unit, rfl⟩

/-- A run generates something from its inputs unless there is an obstacle or it breaks off. -/
theorem exists_ofPaths_eq_ok :
    (∃ g, ofPaths w config inputs = .ok g) ↔
      ¬ Obstacle w config inputs ∧ ¬ Overflows w config inputs := by
  constructor
  · rintro ⟨g, hg⟩
    refine ⟨fun hobstacle => hobstacle.ofPaths_ne g hg, fun hoverflow => ?_⟩
    rw [hoverflow.ofPaths_eq] at hg
    cases hg
  · rintro ⟨hfree, hfits⟩
    have hinputs : ∀ input ∈ inputs, ∃ paths, w.inputPaths config input = .ok paths := by
      intro input hinput
      refine Workspace.exists_inputPaths_eq_ok.mpr fun contents hfolder text htext => ?_
      cases hcompile : Glob.compile text with
      | ok pattern => exact ⟨pattern, rfl⟩
      | error e => exact absurd (.pattern hinput hfolder htext hcompile) hfree
    obtain ⟨paths, hpaths⟩ := Workspace.exists_sourcePaths_eq_ok.mpr hinputs
    have hne : paths ≠ [] := by
      rintro rfl
      exact hfree (.noInputs hpaths)
    have hlimit : config.namedFileSize < UInt64.size :=
      Nat.not_le.mp fun hlimit => hfits ⟨⟨paths, hpaths, hne⟩, hlimit⟩
    refine exists_ofPaths_eq_ok_iff.mpr ⟨hlimit, paths, hpaths, hne, fun path hmem => ?_⟩
    exact exists_ofPath_of_not_obstacle hfree ((Workspace.mem_sourcePaths hpaths).mp hmem)

-- ════════════════════════════════════════════════════════════════════════
-- Runs that break off
-- ════════════════════════════════════════════════════════════════════════

/-- Nothing overflows while a file is generated. -/
theorem ofPath_ne_overflow {limit : Nat} : ofPath w config limit path ≠ .error .overflow := by
  intro h
  rw [ofPath] at h
  split at h
  · cases h
  · cases h
  · split at h
    · cases h
    · cases htext : w.text path with
      | error fault => rw [htext] at h; cases h
      | ok text =>
        have hne := ofText_ne_overflow config path text
        simp only [htext] at h
        cases hgeneration : ofText config path text with
        | ok g => rw [hgeneration] at h; cases h
        | error failure =>
          rw [hgeneration] at h hne
          obtain rfl := Except.error.inj h
          exact hne rfl

/-- A run breaks off for no other reason. -/
theorem ofPaths_eq_overflow_iff :
    ofPaths w config inputs = .error .overflow ↔ Overflows w config inputs := by
  refine ⟨fun h => ?_, Overflows.ofPaths_eq⟩
  cases hpaths : w.sourcePaths config inputs with
  | error failure =>
    rw [ofPaths, hpaths] at h
    obtain rfl := Except.error.inj h
    exact absurd hpaths Workspace.sourcePaths_ne_overflow
  | ok paths =>
    have hne : paths ≠ [] := by
      rintro rfl
      rw [ofPaths_eq_noInputs hpaths] at h
      cases h
    refine ⟨⟨paths, hpaths, hne⟩, Nat.not_lt.mp fun hfits => ?_⟩
    rw [ofPaths_eq hpaths hne hfits] at h
    cases hgs : paths.mapM (ofPath w config config.namedFileSize) with
    | ok gs => rw [hgs] at h; cases h
    | error failure =>
      rw [hgs] at h
      obtain rfl := Except.error.inj h
      obtain ⟨path, _, hpath⟩ := exists_of_mapM_eq_error hgs
      exact ofPath_ne_overflow hpath

end Generation

end CustomFunctions
