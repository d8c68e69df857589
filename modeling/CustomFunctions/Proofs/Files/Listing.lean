import CustomFunctions.Proofs.Files.Saving
import CustomFunctions.Proofs.Files.Sources

/-!
# The files that a run finds

The files in a folder and their paths, and what a change to a single file means for a run: if the run
is given neither the file itself nor a folder in which the file is selected, it generates the same as
before.

## Main definitions

- `Folder.innerPath` — the path of a file in a folder
- `Workspace.folderPlace?` — the place of the folder that a path leads to
- `Generation.Spares` — a run comes to no file at a place
- `Generation.ofPaths_of_keeps` — a run generates the same if only files change that it is spared
-/

namespace CustomFunctions

open CustomFunctions.Path (IsName)

-- ════════════════════════════════════════════════════════════════════════
-- Paths of files in folders
-- ════════════════════════════════════════════════════════════════════════

namespace Folder

/-- The path of a file in a folder, from the names on the way to it. -/
def innerPath (names : List String) : String :=
  String.ofList (List.intercalate ['/'] (names.map String.toList))

theorem innerPath_singleton (name : String) : innerPath [name] = name := by
  rw [innerPath, List.map_singleton, List.intercalate_singleton, String.ofList_toList]

theorem innerPath_cons (name : String) {names : List String} (h : names ≠ []) :
    innerPath (name :: names) = name ++ "/" ++ innerPath names := by
  obtain ⟨next, names, rfl⟩ := List.exists_cons_of_ne_nil h
  apply String.toList_injective
  simp [innerPath, List.intercalate_cons_cons]

theorem ne_nil_of_mem_places {f : Folder} {names : List String} (h : names ∈ f.places) :
    names ≠ [] := by
  induction f generalizing names with
  | empty => cases h
  | file name bytes others ih =>
    rcases List.mem_cons.mp h with rfl | h
    · exact List.cons_ne_nil _ _
    · exact ih h
  | folder name contents others _ ih =>
    rcases List.mem_append.mp h with h | h
    · obtain ⟨rest, _, rfl⟩ := List.mem_map.mp h
      exact List.cons_ne_nil _ _
    · exact ih h

/-- The paths of the files in a folder are those of their places. -/
theorem files_paths (f : Folder) (before : String) :
    (f.files before).map (·.1) = f.places.map fun names => before ++ innerPath names := by
  induction f generalizing before with
  | empty => rfl
  | file name bytes others ih =>
    rw [files, places, List.map_cons, List.map_cons, ih, innerPath_singleton]
  | folder name contents others ihContents ihOthers =>
    rw [files, places, List.map_append, List.map_append, ihContents, ihOthers, List.map_map]
    congr 1
    refine List.map_congr_left fun names hnames => ?_
    rw [Function.comp_apply, innerPath_cons name (ne_nil_of_mem_places hnames)]
    simp only [String.append_assoc]

end Folder

-- ════════════════════════════════════════════════════════════════════════
-- Places of folders
-- ════════════════════════════════════════════════════════════════════════

namespace Workspace

/-- The place of the folder that a path leads to: the names from the root on. -/
def folderPlace? (w : Workspace) (path : String) : Option (List String) :=
  if path = "" then none
  else
    match walk false w.root (w.startTrail path.toList) (Path.components path.toList) with
    | .ok (trail, .folder _) => some (trailNames trail)
    | _ => none

variable {w w' : Workspace} {path : String} {names : List String}

/-- How a path leads to a folder. -/
theorem folderPlace?_eq_some (hw : w.IsSound) :
    w.folderPlace? path = some names ↔ path ≠ "" ∧ ∃ trail, LeadsFrom w.root trail ∧
      trailNames trail = names ∧
      walk false w.root (w.startTrail path.toList) (Path.components path.toList) =
        .ok (trail, .folder (top w.root trail)) := by
  rw [folderPlace?, Option.ite_none_left_eq_some]
  refine and_congr_right fun _ => ?_
  constructor
  · intro h
    split at h
    · next trail contents hwalk =>
      refine ⟨trail, (hw.startTrail _).1.walk hwalk, Option.some.inj h, ?_⟩
      rw [hwalk, walk_folder hwalk]
    · cases h
  · rintro ⟨trail, _, rfl, hwalk⟩
    rw [hwalk]

/-- What is found at the path of a folder is the folder at its place. -/
theorem entry_eq_folder (hw : w.IsSound) {contents : Folder} :
    w.entry path = .ok (.folder contents) ↔
      ∃ names, w.folderPlace? path = some names ∧
        w.root.findAt? names = some (.folder contents) := by
  constructor
  · intro h
    rw [entry] at h
    split at h
    · cases h
    next hne =>
    obtain ⟨⟨trail, found⟩, hwalk, h⟩ := bind_eq_ok.mp h
    cases found with
    | file bytes =>
      dsimp only at h
      split at h
      · cases h
      · cases h
    | folder contents' =>
      obtain rfl := Entry.folder.inj (Except.ok.inj h)
      obtain rfl := walk_folder hwalk
      have hleads := (hw.startTrail _).1.walk hwalk
      exact ⟨trailNames trail, (folderPlace?_eq_some hw).mpr ⟨hne, trail, hleads, rfl, hwalk⟩,
        hleads.findAt?⟩
  · rintro ⟨names, hplace, hfind⟩
    obtain ⟨hne, trail, hleads, rfl, hwalk⟩ := (folderPlace?_eq_some hw).mp hplace
    rw [hleads.findAt?] at hfind
    rw [entry, if_neg hne, hwalk, ← Entry.folder.inj (Option.some.inj hfind)]
    rfl

/-- Paths lead to the same folders. -/
theorem Keeps.folderPlace? {keep : List String → Bool} (h : w.Keeps keep w') (hw : w.IsSound)
    (hplace : w.folderPlace? path = some names) : w'.folderPlace? path = some names := by
  obtain ⟨hne, trail, _, rfl, hwalk⟩ := (folderPlace?_eq_some hw).mp hplace
  obtain ⟨trail', hleads', heq, hwalk'⟩ := h.walk hw hwalk
  exact (folderPlace?_eq_some h.sound).mpr ⟨hne, trail', hleads', heq, hwalk'⟩

/-- The place of a file in a folder is behind that of the folder. -/
theorem place?_join (hw : w.IsSound) (hfolder : w.folderPlace? path = some names)
    {rest : List String} {bytes : ByteArray}
    (hfile : w.root.findAt? (names ++ rest) = some (.file bytes)) (hne : rest ≠ []) :
    w.place? (String.ofList (Path.join path.toList (Folder.innerPath rest).toList)) =
      some (names ++ rest) := by
  obtain ⟨_, trail, hleads, rfl, hwalk⟩ := (folderPlace?_eq_some hw).mp hfolder
  obtain ⟨before, name, rfl⟩ := (List.eq_nil_or_concat' rest).resolve_left hne
  have hnames := (hw.root.of_findAt? hfile).1
  have hrest : ∀ component ∈ (before ++ [name]).map String.toList, IsName component := by
    rw [List.forall_mem_map]
    exact fun component hmem => hnames component (List.mem_append_right _ hmem)
  -- the file stands in a folder, and the walk comes to it
  rw [Folder.findAt?_append, hleads.findAt?, Option.bind_some, Entry.findAt?,
    Folder.findAt?_append] at hfile
  obtain ⟨found, hbefore, hname⟩ := Option.bind_eq_some_iff.mp hfile
  cases found with
  | file bytes' => cases hname
  | folder inner =>
    obtain ⟨trail', hwalk', hleads', heq⟩ := walk_names false hleads
      (fun component hmem => hnames component (by simp [hmem])) hbefore
    have hjoin : (Folder.innerPath (before ++ [name])).toList =
        List.intercalate ['/'] ((before ++ [name]).map String.toList) := String.toList_ofList
    have hto : w.LeadsTo
        (String.ofList (Path.join path.toList (Folder.innerPath (before ++ [name])).toList)) trail'
        (Path.components path.toList ++ before.map String.toList) name.toList := by
      rw [hjoin]
      refine ⟨?_, ?_, hnames name (by simp), ?_, hleads'⟩
      · rw [String.toList_ofList, Path.endsInFolder_join _ hrest (by simp)]
      · rw [String.toList_ofList, Path.components_join _ hrest (by simp), List.map_append,
          List.append_assoc]
        rfl
      · rw [startTrail, String.toList_ofList, Path.isAbsolute_join _ hrest (by simp), ← startTrail,
          walk_append, hwalk]
        dsimp only
        rw [hwalk', ← walk_folder hwalk']
    rw [hto.place?, heq, String.ofList_toList, List.append_assoc]

-- ════════════════════════════════════════════════════════════════════════
-- Selected files
-- ════════════════════════════════════════════════════════════════════════

variable {config : Config} {contents contents' : Folder} {input : String}

/-- Valid patterns select the file at a place in a folder. -/
def Selects (config : Config) (rest : List String) : Prop :=
  ∃ included excluded, compilePatterns config.included = .ok included ∧
    compilePatterns config.excluded = .ok excluded ∧
      isSelected included excluded (Folder.innerPath rest) = true

/-- The paths of a folder are those of the files that are selected. -/
theorem folderPaths_eq (config : Config) (path : String) (contents : Folder) :
    folderPaths config path contents = do
      let included ← compilePatterns config.included
      let excluded ← compilePatterns config.excluded
      return (contents.places.filter fun rest =>
          isSelected included excluded (Folder.innerPath rest)).map fun rest =>
        String.ofList (Path.join path.toList (Folder.innerPath rest).toList) := by
  have hfiles : (contents.files "").map (·.1) = contents.places.map Folder.innerPath := by
    simp only [Folder.files_paths, String.empty_append]
  simp only [folderPaths, hfiles, List.filter_map, List.map_map]
  rfl

theorem mem_of_folderPaths_eq_ok {paths : List String} {source : String}
    (h : folderPaths config path contents = .ok paths) :
    source ∈ paths ↔ ∃ rest ∈ contents.places, Selects config rest ∧
      source = String.ofList (Path.join path.toList (Folder.innerPath rest).toList) := by
  rw [folderPaths_eq] at h
  obtain ⟨included, hincluded, h⟩ := bind_eq_ok.mp h
  obtain ⟨excluded, hexcluded, h⟩ := bind_eq_ok.mp h
  obtain rfl := Except.ok.inj h
  simp only [Selects, hincluded, hexcluded, Except.ok.injEq, List.mem_map, List.mem_filter]
  constructor
  · rintro ⟨rest, ⟨hrest, hselected⟩, rfl⟩
    exact ⟨rest, hrest, ⟨included, excluded, rfl, rfl, hselected⟩, rfl⟩
  · rintro ⟨rest, hrest, ⟨_, _, rfl, rfl, hselected⟩, rfl⟩
    exact ⟨rest, ⟨hrest, hselected⟩, rfl⟩

/-- Files that are not selected do not count. -/
theorem folderPaths_congr {keep : List String → Bool}
    (hplaces : contents'.places.filter keep = contents.places.filter keep)
    (hspared : ∀ rest, keep rest = false → ¬ Selects config rest) :
    folderPaths config path contents' = folderPaths config path contents := by
  rw [folderPaths_eq, folderPaths_eq]
  cases hincluded : compilePatterns config.included with
  | error failure => rfl
  | ok included =>
    cases hexcluded : compilePatterns config.excluded with
    | error failure => rfl
    | ok excluded =>
      have hkept : ∀ places : List (List String),
          places.filter (fun rest => isSelected included excluded (Folder.innerPath rest)) =
            (places.filter keep).filter
              fun rest => isSelected included excluded (Folder.innerPath rest) := by
        intro places
        rw [List.filter_filter]
        refine List.filter_congr fun rest _ => ?_
        rw [eq_comm, Bool.and_eq_left_iff_imp]
        intro hselected
        by_contra hkeep
        rw [Bool.not_eq_true] at hkeep
        exact hspared rest hkeep ⟨included, excluded, hincluded, hexcluded, hselected⟩
      show Except.ok _ = Except.ok _
      rw [hkept, hplaces, ← hkept]

-- ════════════════════════════════════════════════════════════════════════
-- Spared files
-- ════════════════════════════════════════════════════════════════════════

/-- Neither an input nor a selected file in a folder among the inputs has the place. -/
structure Spares (w : Workspace) (config : Config) (inputs : List String) (place : List String) :
    Prop where
  input : ∀ input ∈ inputs, w.place? input ≠ some place
  inner : ∀ input ∈ inputs, ∀ names rest, w.folderPlace? input = some names →
    names ++ rest = place → ¬ Selects config rest

variable {inputs place : List String} {keep : List String → Bool}

/-- What is spared later on is spared before. -/
theorem Spares.of_keeps (hspares : w'.Spares config inputs place) (hw : w.IsSound)
    (h : w.Keeps keep w') : w.Spares config inputs place :=
  ⟨fun input hinput hplace => hspares.input input hinput (h.place? hw hplace),
    fun input hinput names rest hplace =>
      hspares.inner input hinput names rest (h.folderPlace? hw hplace)⟩

/-- The sources are not spared. -/
theorem Spares.place_ne (h : w.Spares config inputs place) (hw : w.IsSound) {source : String}
    (hsource : w.IsSource config inputs source) : w.place? source ≠ some place := by
  obtain ⟨input, hinput, paths, hpaths, hmem⟩ := hsource
  rw [inputPaths] at hpaths
  split at hpaths
  · next contents hentry =>
    obtain ⟨names, hnames, hfind⟩ := (entry_eq_folder hw).mp hentry
    obtain ⟨rest, hrest, hselects, rfl⟩ := (mem_of_folderPaths_eq_ok hpaths).mp hmem
    obtain ⟨bytes, hfile⟩ := Folder.findAt?_of_mem_places (hw.root.of_findAt? hfind).2 hrest
    have hplace : w.root.findAt? (names ++ rest) = some (.file bytes) := by
      rw [Folder.findAt?_append, hfind]
      exact hfile
    rw [place?_join hw hnames hplace (Folder.ne_nil_of_mem_places hrest)]
    exact fun heq => h.inner input hinput names rest hnames (Option.some.inj heq) hselects
  · obtain rfl := Except.ok.inj hpaths
    obtain rfl := List.mem_singleton.mp hmem
    exact h.input source hinput

/-- A file that is none of the sources is spared. -/
theorem spares_of_sources (hw : w.IsSound) {bytes : ByteArray}
    (hfile : w.root.findAt? place = some (.file bytes))
    (h : ∀ source, w.IsSource config inputs source → w.place? source ≠ some place) :
    w.Spares config inputs place := by
  constructor
  · intro input hinput hplace
    have hentry := entry_of_place hw hplace
    rw [hfile] at hentry
    have hpaths : w.inputPaths config input = .ok [input] := by rw [inputPaths, hentry]
    exact h input ⟨input, hinput, _, hpaths, List.mem_singleton_self _⟩ hplace
  · rintro input hinput names rest hnames rfl hselects
    obtain ⟨_, trail, hleads, rfl, _⟩ := (folderPlace?_eq_some hw).mp hnames
    have hentry := (entry_eq_folder hw).mpr ⟨_, hnames, hleads.findAt?⟩
    have hinner := hfile
    rw [Folder.findAt?_append, hleads.findAt?] at hinner
    have hrest := Folder.mem_places hinner
    obtain ⟨included, excluded, hincluded, hexcluded, _⟩ := id hselects
    obtain ⟨paths, hpaths⟩ : ∃ paths, w.inputPaths config input = .ok paths := by
      rw [inputPaths, hentry]
      simp only [folderPaths_eq, hincluded, hexcluded]
      exact ⟨_, rfl⟩
    refine h _ ⟨input, hinput, paths, hpaths, ?_⟩
      (place?_join hw hnames hfile (Folder.ne_nil_of_mem_places hrest))
    rw [inputPaths, hentry] at hpaths
    exact (mem_of_folderPaths_eq_ok hpaths).mpr ⟨rest, hrest, hselects, rfl⟩

/-- An input stands for the same files. -/
theorem Spares.inputPaths_eq (h : w.Spares config inputs place) (hw : w.IsSound)
    (hkeeps : w.Keeps (fun names => names ≠ place) w') (hinput : input ∈ inputs)
    (hfound : ∃ found, w.entry input = .ok found) :
    w'.inputPaths config input = w.inputPaths config input := by
  obtain ⟨found, hfound⟩ := hfound
  cases found with
  | folder contents =>
    obtain ⟨names, hnames, hfind⟩ := (entry_eq_folder hw).mp hfound
    obtain ⟨contents', hfind', hplaces⟩ := hkeeps.root.folders names contents hfind
    have hfound' := (entry_eq_folder hkeeps.sound).mpr ⟨names, hkeeps.folderPlace? hw hnames, hfind'⟩
    rw [inputPaths, inputPaths, hfound, hfound']
    refine folderPaths_congr hplaces fun rest hrest => ?_
    exact h.inner input hinput names rest hnames (by simpa using hrest)
  | file bytes =>
    obtain ⟨other, hother, _⟩ := place_of_entry hw hfound
    have hne : other ≠ place := by
      rintro rfl
      exact h.input input hinput hother
    rw [inputPaths, inputPaths, hfound, hkeeps.entry hw hother (decide_eq_true hne) hfound]

end Workspace

namespace Generation

open Workspace

variable {w w' : Workspace} {config : Config} {inputs place : List String} {g : Generation}

/-- A run generates the same if only a file has changed that it is spared. -/
theorem ofPaths_of_keeps (hw : w.IsSound) (hkeeps : w.Keeps (fun names => names ≠ place) w')
    (hspares : w.Spares config inputs place) (h : ofPaths w config inputs = .ok g) :
    ofPaths w' config inputs = .ok g := by
  obtain ⟨hfits, paths, hpaths, hne, gs, hgs, hmerge⟩ := ofPaths_eq_ok.mp h
  -- all sources are files
  have hfile : ∀ source, w.IsSource config inputs source →
      ∃ bytes, w.entry source = .ok (.file bytes) := by
    intro source hsource
    obtain ⟨bytes, hentry, _⟩ := exists_ofPath_eq_ok.mp (exists_ofPath_of_ofPaths h hsource)
    exact ⟨bytes, hentry⟩
  have hinputs : ∀ input ∈ inputs, w'.inputPaths config input = w.inputPaths config input := by
    intro input hinput
    refine hspares.inputPaths_eq hw hkeeps hinput ?_
    cases hentry : w.entry input with
    | ok found => exact ⟨found, rfl⟩
    | error fault =>
      have hsource : w.IsSource config inputs input :=
        ⟨input, hinput, [input], by rw [inputPaths, hentry], List.mem_singleton_self _⟩
      obtain ⟨bytes, hbytes⟩ := hfile input hsource
      rw [hentry] at hbytes
      cases hbytes
  have hsources : ∀ source ∈ paths, ofPath w' config config.namedFileSize source =
      ofPath w config config.namedFileSize source := by
    intro source hmem
    have hsource := (mem_sourcePaths hpaths).mp hmem
    obtain ⟨bytes, hentry⟩ := hfile source hsource
    obtain ⟨other, hother, _⟩ := place_of_entry hw hentry
    have hne : other ≠ place := by
      rintro rfl
      exact hspares.place_ne hw hsource hother
    have hentry' := hkeeps.entry hw hother (decide_eq_true hne) hentry
    rw [ofPath, ofPath, hentry, hentry', text_eq hentry, text_eq hentry']
  refine ofPaths_eq_ok.mpr ⟨hfits, paths, ?_, hne, gs, ?_, hmerge⟩
  · rw [← hpaths, sourcePaths, sourcePaths, mapM_congr hinputs]
  · rw [← hgs, mapM_congr hsources]

end Generation

end CustomFunctions
