import CustomFunctions.Proofs.Files.Listing
import CustomFunctions.Proofs.Text.ByteOrder

/-!
# The files that inputs stand for

A folder among the inputs of a run stands for the files in it, at any depth, that the patterns admit.
They come in the order of their components by bytes, which is the order of a walk that visits the
entries of every folder by name and goes into a folder before it visits the next entry. So `a/z.ts`
comes before `a.ts`, although a point is smaller than a slash. Any other input stands for itself.

## Main definitions

- `Workspace.Admits` — the patterns admit a path in a folder
- `Workspace.IsListing` — the files of a folder in order, as names on the way to them
- `Workspace.Expands` — the paths that an input stands for
- `Workspace.sourcePaths_expands` — the paths of a run are those of its inputs, in the order of the
  inputs
-/

namespace CustomFunctions

open CustomFunctions.Path (IsName)

-- ════════════════════════════════════════════════════════════════════════
-- The order of a walk
-- ════════════════════════════════════════════════════════════════════════

namespace Folder

/-- The way to a file begins with the name of an entry. -/
theorem exists_name_of_mem_places {f : Folder} {names : List String} (h : names ∈ f.places) :
    ∃ name ∈ f.names, ∃ rest, names = name :: rest := by
  induction f generalizing names with
  | empty => cases h
  | file name bytes others ih =>
    rcases List.mem_cons.mp h with rfl | h
    · exact ⟨name, List.mem_cons_self, [], rfl⟩
    · obtain ⟨other, hother, hrest⟩ := ih h
      exact ⟨other, List.mem_cons_of_mem _ hother, hrest⟩
  | folder name contents others _ ih =>
    rcases List.mem_append.mp h with h | h
    · obtain ⟨rest, _, rfl⟩ := List.mem_map.mp h
      exact ⟨name, List.mem_cons_self, rest, rfl⟩
    · obtain ⟨other, hother, hrest⟩ := ih h
      exact ⟨other, List.mem_cons_of_mem _ hother, hrest⟩

/-- Whatever stands behind an entry comes after all that begins with the name of the entry. -/
theorem cons_lt_of_mem_places {name : String} {others : Folder}
    (hfirst : ∀ other ∈ others.names, name < other) (rest : List String) {names : List String}
    (h : names ∈ others.places) : name :: rest < names := by
  obtain ⟨other, hother, more, rfl⟩ := exists_name_of_mem_places h
  exact List.cons_lt_cons_iff.mpr (.inl (hfirst other hother))

/-- A walk comes to the files in the order of the names on the way to them. -/
theorem IsSound.places_pairwise {f : Folder} (hf : f.IsSound) : f.places.Pairwise (· < ·) := by
  induction f with
  | empty => exact .nil
  | file name bytes others ih =>
    obtain ⟨_, hfirst, hothers⟩ := hf
    refine List.pairwise_cons.mpr ⟨?_, ih hothers⟩
    intro names hnames
    exact cons_lt_of_mem_places hfirst [] hnames
  | folder name contents others ihContents ihOthers =>
    obtain ⟨_, hfirst, hcontents, hothers⟩ := hf
    refine List.pairwise_append.mpr ⟨?_, ihOthers hothers, ?_⟩
    · refine List.pairwise_map.mpr ((ihContents hcontents).imp fun {a b} hab => ?_)
      exact List.cons_lt_cons_iff.mpr (.inr ⟨rfl, hab⟩)
    · intro a ha b hb
      obtain ⟨rest, _, rfl⟩ := List.mem_map.mp ha
      exact cons_lt_of_mem_places hfirst rest hb

end Folder

namespace Workspace

-- ════════════════════════════════════════════════════════════════════════
-- Selected files
-- ════════════════════════════════════════════════════════════════════════

/-- The path with every backslash turned into a slash. -/
def slashed (path : String) : String :=
  path.map fun c => if c = '\\' then '/' else c

/-- One of the first patterns matches the path, if there are any, and none of the second ones does.
Backslashes count as slashes. -/
structure Admits (included excluded : List Glob) (path : String) : Prop where
  included : included = [] ∨ ∃ pattern ∈ included, pattern.accepts (slashed path) = true
  excluded : ∀ pattern ∈ excluded, pattern.accepts (slashed path) = false

theorem isSelected_iff {included excluded : List Glob} {path : String} :
    isSelected included excluded path = true ↔ Admits included excluded path := by
  have hincluded : included.isEmpty = true ∨ included.any (·.accepts (slashed path)) = true ↔
      included = [] ∨ ∃ pattern ∈ included, pattern.accepts (slashed path) = true := by
    rw [List.isEmpty_iff, List.any_eq_true]
  have hexcluded : (! excluded.any (·.accepts (slashed path))) = true ↔
      ∀ pattern ∈ excluded, pattern.accepts (slashed path) = false := by
    rw [Bool.not_eq_true', List.any_eq_false]
    simp only [Bool.not_eq_true]
  show (included.isEmpty || included.any (·.accepts (slashed path))) &&
    (! excluded.any (·.accepts (slashed path))) ↔ _
  rw [Bool.and_eq_true, Bool.or_eq_true, hincluded, hexcluded]
  constructor
  · rintro ⟨hincluded, hexcluded⟩
    exact ⟨hincluded, hexcluded⟩
  · rintro ⟨hincluded, hexcluded⟩
    exact ⟨hincluded, hexcluded⟩

/-- The bytes of each of the names. -/
def nameBytes (names : List String) : List (List UInt8) :=
  names.map Text.bytes

/-- The files of a folder that patterns admit, each as the names on the way to it. No file is listed
twice, as the names increase strictly, component by component and by their bytes. -/
structure IsListing (included excluded : List Glob) (contents : Folder)
    (found : List (List String)) : Prop where
  mem_iff : ∀ names, names ∈ found ↔
    (∃ bytes, contents.findAt? names = some (.file bytes)) ∧
      Admits included excluded (Folder.innerPath names)
  increasing : found.Pairwise fun a b => nameBytes a < nameBytes b

/-- The path of a file in the folder at a path. -/
def fileIn (path : String) (names : List String) : String :=
  String.ofList (Path.join path.toList (Folder.innerPath names).toList)

/-- The paths that an input stands for, with given patterns. -/
inductive Expands (w : Workspace) (included excluded : List Glob) : String → List String → Prop
  | folder {input : String} {contents : Folder} {found : List (List String)}
      (hentry : w.entry input = .ok (.folder contents))
      (hfound : IsListing included excluded contents found)
      (honce : (found.map (fileIn input)).Nodup) :
      Expands w included excluded input (found.map (fileIn input))
  | other {input : String} (hentry : ∀ contents, w.entry input ≠ .ok (.folder contents)) :
      Expands w included excluded input [input]

variable {w : Workspace} {config : Config} {included excluded : List Glob} {contents : Folder}

/-- The walk through a folder lists its files. -/
theorem isListing_places (h : contents.IsSound) :
    IsListing included excluded contents
      (contents.places.filter fun names =>
        isSelected included excluded (Folder.innerPath names)) where
  mem_iff names := by
    rw [List.mem_filter, isSelected_iff]
    refine and_congr_left fun _ => ?_
    constructor
    · exact Folder.findAt?_of_mem_places h
    · rintro ⟨bytes, hfile⟩
      exact Folder.mem_places hfile
  increasing := by
    refine (h.places_pairwise.filter _).imp fun {a b} hab => ?_
    exact List.map_lt (fun _ _ hlt => Text.bytes_lt hlt) hab

/-- The path of a file in a folder has the components of the folder and the names on the way. -/
theorem components_fileIn (path : String) {names : List String}
    (hnames : ∀ name ∈ names, IsName name.toList) (hne : names ≠ []) :
    Path.components (fileIn path names).toList =
      Path.components path.toList ++ names.map String.toList := by
  rw [fileIn, String.toList_ofList, Folder.innerPath, String.toList_ofList]
  refine Path.components_join _ ?_ (by simpa using hne)
  rw [List.forall_mem_map]
  exact hnames

/-- Different files in a folder have different paths. -/
theorem IsListing.nodup_paths {found : List (List String)}
    (hfound : IsListing included excluded contents found) (h : contents.IsSound) (input : String) :
    (found.map (fileIn input)).Nodup := by
  have hvalid : ∀ names ∈ found, (∀ name ∈ names, IsName name.toList) ∧ names ≠ [] := by
    intro names hmem
    obtain ⟨bytes, hfile⟩ := ((hfound.mem_iff names).mp hmem).1
    exact ⟨(h.of_findAt? hfile).1, Folder.ne_nil_of_mem_places (Folder.mem_places hfile)⟩
  refine List.pairwise_map.mpr (hfound.increasing.imp_of_mem fun {a b} ha hb hlt heq => ?_)
  have hcomponents : Path.components (fileIn input a).toList =
      Path.components (fileIn input b).toList := by rw [heq]
  rw [components_fileIn input (hvalid a ha).1 (hvalid a ha).2,
    components_fileIn input (hvalid b hb).1 (hvalid b hb).2] at hcomponents
  have htoList : Function.Injective String.toList := fun _ _ => String.toList_inj.mp
  obtain rfl := htoList.list_map (List.append_cancel_left hcomponents)
  exact List.lt_irrefl _ hlt

/-- With valid patterns every input stands for some paths. -/
theorem exists_expands (hw : w.IsSound) (hincluded : compilePatterns config.included = .ok included)
    (hexcluded : compilePatterns config.excluded = .ok excluded) (input : String) :
    ∃ paths, w.inputPaths config input = .ok paths ∧ w.Expands included excluded input paths := by
  by_cases hfolder : ∃ contents, w.entry input = .ok (.folder contents)
  · obtain ⟨contents, hentry⟩ := hfolder
    obtain ⟨names, _, hfind⟩ := (entry_eq_folder hw).mp hentry
    have hcontents : contents.IsSound := (hw.root.of_findAt? hfind).2
    have hlisting : IsListing included excluded contents _ := isListing_places hcontents
    refine ⟨_, ?_, .folder hentry hlisting (hlisting.nodup_paths hcontents input)⟩
    rw [inputPaths, hentry]
    dsimp only
    rw [folderPaths_eq, hincluded, hexcluded]
    rfl
  · have hother : ∀ contents, w.entry input ≠ .ok (.folder contents) := not_exists.mp hfolder
    refine ⟨[input], ?_, .other hother⟩
    rw [inputPaths]
    split
    · next contents hentry => exact absurd hentry (hother contents)
    · rfl

/-- The paths of a run are those that its inputs stand for, in the order of the inputs: the files of a
folder that the patterns admit, in the order of their components by bytes, and any other input
itself. -/
theorem sourcePaths_expands (hw : w.IsSound)
    (hincluded : compilePatterns config.included = .ok included)
    (hexcluded : compilePatterns config.excluded = .ok excluded) (inputs : List String) :
    ∃ lists, w.sourcePaths config inputs = .ok lists.flatten ∧
      List.Forall₂ (w.Expands included excluded) inputs lists := by
  choose paths hpaths hexpands using fun input => exists_expands hw hincluded hexcluded input
  refine ⟨inputs.map paths, ?_, ?_⟩
  · have hlists : inputs.mapM (w.inputPaths config) = .ok (inputs.map paths) := by
      rw [mapM_eq_ok_iff, List.forall₂_map_right_iff, List.forall₂_same]
      exact fun input _ => hpaths input
    rw [sourcePaths, hlists]
    rfl
  · rw [List.forall₂_map_right_iff, List.forall₂_same]
    exact fun input _ => hexpands input

/-- A folder `src` with the files `a/notes.md`, `a/z.ts` and `a.ts`. -/
def nestedFolder : Workspace where
  root := .folder "src"
    (.folder "a" (.file "notes.md" ⟨#[]⟩ (.file "z.ts" ⟨#[]⟩ .empty)) (.file "a.ts" ⟨#[]⟩ .empty))
    .empty

/-- Settings that select the files with the ending `.ts`. -/
def scriptSettings : Config where
  included := ["**/*.ts"]
  excluded := []

/-- The file in the inner folder comes first, and the input that is no folder stays where it is. -/
theorem sourcePaths_expands_nestedFolder :
    nestedFolder.IsSound ∧
      nestedFolder.sourcePaths scriptSettings ["main.ts", "src"] =
        .ok ["main.ts", "src/a/z.ts", "src/a.ts"] ∧
      ∃ lists, lists.flatten = ["main.ts", "src/a/z.ts", "src/a.ts"] ∧
        List.Forall₂
          (nestedFolder.Expands
            [⟨[.anyComponents, .anySequence, .char '.', .char 't', .char 's']⟩] [])
          ["main.ts", "src"] lists := by
  have hsound : nestedFolder.IsSound := ⟨by decide +kernel, _, rfl⟩
  have hcompile : Glob.compile "**/*.ts" =
      .ok ⟨[.anyComponents, .anySequence, .char '.', .char 't', .char 's']⟩ := by
    have htext : "**/*.ts".toList = ['*', '*', '/', '*', '.', 't', 's'] := rfl
    simp [Glob.compile, htext, Glob.partsFrom, Glob.addComponents, Except.map]
  have hincluded : compilePatterns scriptSettings.included =
      .ok [⟨[.anyComponents, .anySequence, .char '.', .char 't', .char 's']⟩] := by
    have hall : scriptSettings.included.mapM Glob.compile =
        .ok [⟨[.anyComponents, .anySequence, .char '.', .char 't', .char 's']⟩] := by
      rw [mapM_eq_ok_iff]
      exact .cons hcompile .nil
    rw [compilePatterns, hall]
  have hexcluded : compilePatterns scriptSettings.excluded = .ok [] := rfl
  have hfolder : nestedFolder.inputPaths scriptSettings "src" = .ok ["src/a/z.ts", "src/a.ts"] := by
    have hentry : nestedFolder.entry "src" = .ok (.folder
        (.folder "a" (.file "notes.md" ⟨#[]⟩ (.file "z.ts" ⟨#[]⟩ .empty))
          (.file "a.ts" ⟨#[]⟩ .empty))) := rfl
    rw [inputPaths, hentry]
    dsimp only
    rw [folderPaths, hincluded, hexcluded]
    decide +kernel
  have hpaths : nestedFolder.sourcePaths scriptSettings ["main.ts", "src"] =
      .ok ["main.ts", "src/a/z.ts", "src/a.ts"] := by
    have hall : ["main.ts", "src"].mapM (nestedFolder.inputPaths scriptSettings) =
        .ok [["main.ts"], ["src/a/z.ts", "src/a.ts"]] := by
      rw [mapM_eq_ok_iff]
      exact .cons rfl (.cons hfolder .nil)
    rw [sourcePaths, hall]
    rfl
  obtain ⟨lists, hlists, hexpands⟩ :=
    sourcePaths_expands hsound hincluded hexcluded ["main.ts", "src"]
  exact ⟨hsound, hpaths, lists, Except.ok.inj (hlists.symm.trans hpaths), hexpands⟩

end Workspace

end CustomFunctions
