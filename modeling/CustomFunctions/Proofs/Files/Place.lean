import CustomFunctions.Proofs.Files.Agreement
import CustomFunctions.Proofs.Files.Path

/-!
# Where paths lead

A walk along a path is a walk from folder to folder, so it can be told by the names of the folders on
it. The place of a path is the list of names from the root to the file that the path stands for. It
does not change as long as no folder goes away.

## Main definitions

- `Workspace.IsSound` — the folders are sound, and relative paths start in one of them
- `Workspace.LeadsFrom` — the trails on which each folder is found in the one before it
- `Workspace.place?` — the place that a path stands for
- `Workspace.entry_of_place`, `Workspace.place_of_entry` — what is found at a path
- `Workspace.place?_mono` — places stay as long as all folders do
-/

namespace CustomFunctions.Workspace

open CustomFunctions.Path (IsName)

-- ════════════════════════════════════════════════════════════════════════
-- Trails
-- ════════════════════════════════════════════════════════════════════════

/-- The folder that a trail has come to. -/
abbrev top (root : Folder) (trail : Trail) : Folder :=
  (trail.head?.map (·.2)).getD root

/-- The names of the folders on a trail, from the root on. -/
abbrev trailNames (trail : Trail) : List String :=
  trail.reverse.map (·.1)

/-- Each folder on the trail stands in the one before it, the first one in the root. -/
inductive LeadsFrom (root : Folder) : Trail → Prop
  | nil : LeadsFrom root []
  | cons {trail : Trail} {name : String} {contents : Folder} (h : LeadsFrom root trail)
      (hfind : (top root trail).find? name = some (.folder contents)) :
      LeadsFrom root ((name, contents) :: trail)

variable {root root' : Folder} {trail trail' : Trail}

theorem trailNames_cons (name : String) (contents : Folder) (trail : Trail) :
    trailNames ((name, contents) :: trail) = trailNames trail ++ [name] := by
  simp

theorem LeadsFrom.tail (h : LeadsFrom root trail) : LeadsFrom root trail.tail := by
  cases h with
  | nil => exact .nil
  | cons h _ => exact h

theorem LeadsFrom.findAt? (h : LeadsFrom root trail) :
    root.findAt? (trailNames trail) = some (.folder (top root trail)) := by
  induction h with
  | nil => rfl
  | cons _ hfind ih =>
    rw [trailNames_cons, Folder.findAt?_append, ih, Option.bind_some, Entry.findAt?,
      Folder.findAt?_cons, hfind]
    rfl

-- ════════════════════════════════════════════════════════════════════════
-- Walks
-- ════════════════════════════════════════════════════════════════════════

/-- A walk along two stretches goes on where the first one ends. -/
theorem walk_append (make : Bool) (root : Folder) (trail : Trail) (a b : List (List Char)) :
    walk make root trail (a ++ b) =
      match walk make root trail a with
      | .ok (trail', .folder _) => walk make root trail' b
      | .ok (trail', .file bytes) =>
        if b = [] then .ok (trail', .file bytes) else .error .notFolder
      | .error fault => .error fault := by
  induction a generalizing trail with
  | nil => rfl
  | cons component a ih =>
    rw [List.cons_append, walk, walk]
    split
    · exact ih trail.tail
    · dsimp only
      split
      · exact ih _
      · cases a with
        | nil => rfl
        | cons next a => rfl
      · split
        · exact ih _
        · rfl

/-- A walk that ends in a folder ends on top of its trail. -/
theorem walk_folder {make : Bool} {components : List (List Char)} {contents : Folder}
    (h : walk make root trail components = .ok (trail', .folder contents)) :
    contents = top root trail' := by
  induction components generalizing trail with
  | nil =>
    rw [walk] at h
    obtain ⟨rfl, heq⟩ := Prod.mk.inj (Except.ok.inj h)
    exact (Entry.folder.inj heq).symm
  | cons component rest ih =>
    rw [walk] at h
    split at h
    · exact ih h
    · dsimp only at h
      split at h
      · exact ih h
      · split at h
        · cases h
        · cases h
      · split at h
        · exact ih h
        · cases h

/-- A walk that makes no folders leads from folder to folder. -/
theorem LeadsFrom.walk (h : LeadsFrom root trail) {components : List (List Char)} {found : Entry}
    (hwalk : walk false root trail components = .ok (trail', found)) : LeadsFrom root trail' := by
  induction components generalizing trail with
  | nil =>
    rw [Workspace.walk] at hwalk
    rwa [← (Prod.mk.inj (Except.ok.inj hwalk)).1]
  | cons component rest ih =>
    rw [Workspace.walk] at hwalk
    split at hwalk
    · exact ih h.tail hwalk
    · dsimp only at hwalk
      split at hwalk
      · next hfind => exact ih (h.cons hfind) hwalk
      · split at hwalk
        · rwa [← (Prod.mk.inj (Except.ok.inj hwalk)).1]
        · cases hwalk
      · cases hwalk

/-- Where no folder is missing, none is made. -/
theorem walk_true {components : List (List Char)} {found : Entry}
    (h : walk false root trail components = .ok (trail', found)) :
    walk true root trail components = .ok (trail', found) := by
  induction components generalizing trail with
  | nil => exact h
  | cons component rest ih =>
    rw [walk] at h ⊢
    split at h
    · next hup =>
      rw [if_pos hup]
      exact ih h
    · next hup =>
      rw [if_neg hup]
      dsimp only at h ⊢
      split at h
      · exact ih h
      · exact h
      · cases h

/-- The walk along proper names of folders. -/
theorem walk_names (make : Bool) (h : LeadsFrom root trail) {names : List String} {contents : Folder}
    (hnames : ∀ name ∈ names, IsName name.toList)
    (hfind : (top root trail).findAt? names = some (.folder contents)) :
    ∃ trail', walk make root trail (names.map String.toList) = .ok (trail', .folder contents) ∧
      LeadsFrom root trail' ∧ trailNames trail' = trailNames trail ++ names := by
  induction names generalizing trail with
  | nil =>
    rw [Folder.findAt?] at hfind
    exact ⟨trail, by rw [← Entry.folder.inj (Option.some.inj hfind)]; rfl, h, by simp⟩
  | cons name names ih =>
    rw [List.forall_mem_cons] at hnames
    obtain ⟨inner, hinner, hrest⟩ := Folder.findAt?_cons_eq_folder hfind
    obtain ⟨trail', hwalk, hleads, heq⟩ := ih (h.cons hinner) hnames.2 hrest
    refine ⟨trail', ?_, hleads, ?_⟩
    · rw [List.map_cons, walk, if_neg hnames.1.2.2.2]
      simp only [String.ofList_toList, hinner]
      exact hwalk
    · rw [heq, trailNames_cons, List.append_assoc, List.singleton_append]

/-- As long as no folder goes away, a walk to a folder takes the same way. -/
theorem walk_mono
    (hkeep : ∀ names contents, root.findAt? names = some (.folder contents) →
      ∃ contents', root'.findAt? names = some (.folder contents'))
    (h : LeadsFrom root trail) (h' : LeadsFrom root' trail')
    (hnames : trailNames trail' = trailNames trail) {components : List (List Char)} {last : Trail}
    {contents : Folder} (hwalk : walk false root trail components = .ok (last, .folder contents)) :
    ∃ last', walk false root' trail' components = .ok (last', .folder (top root' last')) ∧
      LeadsFrom root' last' ∧ trailNames last' = trailNames last := by
  induction components generalizing trail trail' with
  | nil =>
    rw [walk] at hwalk
    obtain ⟨rfl, _⟩ := Prod.mk.inj (Except.ok.inj hwalk)
    exact ⟨trail', rfl, h', hnames⟩
  | cons component rest ih =>
    rw [walk] at hwalk
    rw [walk]
    split at hwalk
    · next hup =>
      rw [if_pos hup]
      refine ih h.tail h'.tail ?_ hwalk
      simp only [trailNames, ← List.dropLast_reverse, List.map_dropLast] at hnames ⊢
      rw [hnames]
    · next hup =>
      rw [if_neg hup]
      dsimp only at hwalk ⊢
      split at hwalk
      · next inner hfind =>
        have hplace := (h.cons hfind).findAt?
        rw [trailNames_cons] at hplace
        obtain ⟨inner', hinner'⟩ := hkeep _ _ hplace
        rw [← hnames, Folder.findAt?_append, h'.findAt?, Option.bind_some, Entry.findAt?,
          Folder.findAt?] at hinner'
        simp only [hinner']
        refine ih (h.cons hfind) (h'.cons hinner') ?_ hwalk
        rw [trailNames_cons, trailNames_cons, hnames]
      · split at hwalk
        · cases hwalk
        · cases hwalk
      · cases hwalk

-- ════════════════════════════════════════════════════════════════════════
-- Sound workspaces
-- ════════════════════════════════════════════════════════════════════════

/-- The folders are sound, and relative paths start in one of them. -/
structure IsSound (w : Workspace) : Prop where
  root : w.root.IsSound
  here : ∃ contents, w.root.findAt? w.here = some (.folder contents)

/-- The names of the folder in which the walk along a path starts. -/
def startNames (w : Workspace) (path : List Char) : List String :=
  if Path.isAbsolute path then [] else w.here

theorem IsSound.startTrail {w : Workspace} (hw : w.IsSound) (path : List Char) :
    LeadsFrom w.root (w.startTrail path) ∧
      trailNames (w.startTrail path) = w.startNames path := by
  rw [Workspace.startTrail, startNames]
  split
  · exact ⟨.nil, rfl⟩
  · obtain ⟨contents, hhere⟩ := hw.here
    obtain ⟨trail, hwalk, hleads, hnames⟩ :=
      walk_names true .nil (hw.root.of_findAt? hhere).1 hhere
    have htrail : w.hereTrail = trail := by
      rw [hereTrail, hwalk]
    rw [htrail]
    exact ⟨hleads, hnames⟩

-- ════════════════════════════════════════════════════════════════════════
-- Places
-- ════════════════════════════════════════════════════════════════════════

/-- The place of the file that a path stands for, whether there is one or not: the names from the root
on. There is none if the path can only lead to a folder or leads through something else. -/
def place? (w : Workspace) (path : String) : Option (List String) :=
  let components := Path.components path.toList
  if Path.endsInFolder path.toList then none
  else
    match components.getLast?, walk false w.root (w.startTrail path.toList) components.dropLast with
    | some name, .ok (trail, .folder _) => some (trailNames trail ++ [String.ofList name])
    | _, _ => none

/-- How a path leads to its place: to a folder first, and from there by a name. -/
structure LeadsTo (w : Workspace) (path : String) (trail : Trail) (before : List (List Char))
    (name : List Char) : Prop where
  toFile : Path.endsInFolder path.toList = false
  components : Path.components path.toList = before ++ [name]
  isName : IsName name
  walk : walk false w.root (w.startTrail path.toList) before = .ok (trail, .folder (top w.root trail))
  leads : LeadsFrom w.root trail

variable {w : Workspace} {path : String}

theorem place?_eq_some (hw : w.IsSound) {place : List String} (h : w.place? path = some place) :
    ∃ trail before name, w.LeadsTo path trail before name ∧
      place = trailNames trail ++ [String.ofList name] := by
  rw [place?] at h
  obtain ⟨htoFile, h⟩ := Option.ite_none_left_eq_some.mp h
  rw [Bool.not_eq_true] at htoFile
  obtain ⟨before, name, hcomponents, hname⟩ := Path.components_concat htoFile
  rw [hcomponents, List.getLast?_concat, List.dropLast_concat] at h
  split at h
  · next name' trail contents hlast hwalk =>
    obtain rfl := Option.some.inj hlast
    refine ⟨trail, before, name, ⟨htoFile, hcomponents, hname, ?_, ?_⟩, (Option.some.inj h).symm⟩
    · rw [hwalk, walk_folder hwalk]
    · exact (hw.startTrail _).1.walk hwalk
  · cases h

theorem LeadsTo.place? {trail : Trail} {before : List (List Char)} {name : List Char}
    (h : w.LeadsTo path trail before name) :
    w.place? path = some (trailNames trail ++ [String.ofList name]) := by
  rw [Workspace.place?, if_neg (by rw [h.toFile]; exact Bool.false_ne_true), h.components,
    List.getLast?_concat, List.dropLast_concat, h.walk]

/-- The place of a path is that of an entry in a folder. -/
theorem LeadsTo.findAt? {trail : Trail} {before : List (List Char)} {name : List Char}
    (h : w.LeadsTo path trail before name) :
    w.root.findAt? (trailNames trail ++ [String.ofList name]) =
      (top w.root trail).find? (String.ofList name) := by
  rw [Folder.findAt?_append, h.leads.findAt?, Option.bind_some, Entry.findAt?, Folder.findAt?]

theorem LeadsTo.path_ne {trail : Trail} {before : List (List Char)} {name : List Char}
    (h : w.LeadsTo path trail before name) : path ≠ "" := by
  rintro rfl
  exact absurd h.toFile (by decide)

/-- What is found at a path is what stands at its place. -/
theorem entry_of_place (hw : w.IsSound) {place : List String} (h : w.place? path = some place) :
    w.entry path =
      match w.root.findAt? place with
      | some found => .ok found
      | none => .error .notFound := by
  obtain ⟨trail, before, name, hleads, rfl⟩ := place?_eq_some hw h
  rw [hleads.findAt?, entry, if_neg hleads.path_ne, hleads.components, walk_append, hleads.walk]
  simp only [walk, if_neg hleads.isName.2.2.2]
  cases hfind : (top w.root trail).find? (String.ofList name) with
  | none => rfl
  | some found =>
    cases found with
    | folder contents => rfl
    | file bytes =>
      simp only [if_true, Except.bind, bind, pure, Except.pure, hleads.toFile, Bool.false_eq_true,
        if_false]

/-- A file that is found at a path stands at the end of a walk, and the path is not one of a folder. -/
theorem walk_of_entry {bytes : ByteArray} (h : w.entry path = .ok (.file bytes)) :
    Path.endsInFolder path.toList = false ∧
      ∃ trail, walk false w.root (w.startTrail path.toList) (Path.components path.toList) =
        .ok (trail, .file bytes) := by
  rw [entry] at h
  split at h
  · cases h
  · cases hwalk : walk false w.root (w.startTrail path.toList) (Path.components path.toList) with
    | error fault => rw [hwalk] at h; cases h
    | ok result =>
      obtain ⟨trail, found⟩ := result
      rw [hwalk] at h
      cases found with
      | folder contents => cases h
      | file found =>
        have htoFile : Path.endsInFolder path.toList = false := by
          by_contra hfolder
          rw [Bool.not_eq_false] at hfolder
          simp only [Except.bind, bind, pure, Except.pure, hfolder, if_true] at h
          cases h
        simp only [Except.bind, bind, pure, Except.pure, htoFile, Bool.false_eq_true, if_false] at h
        exact ⟨htoFile, trail, by rw [Entry.file.inj (Except.ok.inj h)]⟩

/-- A file that is found at a path stands at its place. -/
theorem place_of_entry (hw : w.IsSound) {bytes : ByteArray} (h : w.entry path = .ok (.file bytes)) :
    ∃ place, w.place? path = some place ∧ w.root.findAt? place = some (.file bytes) := by
  obtain ⟨htoFile, trail, hwalk⟩ := walk_of_entry h
  obtain ⟨before, name, hcomponents, hname⟩ := Path.components_concat htoFile
  -- the walk comes to a folder before the last step, and the file stands in it
  rw [hcomponents, walk_append] at hwalk
  split at hwalk
  · next trail' contents hbefore =>
    have hleads : w.LeadsTo path trail' before name :=
      ⟨htoFile, hcomponents, hname, by rw [hbefore, walk_folder hbefore],
        (hw.startTrail _).1.walk hbefore⟩
    refine ⟨_, hleads.place?, ?_⟩
    rw [hleads.findAt?]
    simp only [walk, if_neg hname.2.2.2] at hwalk
    split at hwalk
    · cases hwalk
    · next hfind => rw [hfind, Entry.file.inj (Prod.mk.inj (Except.ok.inj hwalk)).2]
    · cases hwalk
  · cases hwalk
  · cases hwalk

/-- Places stay as long as all folders do. -/
theorem place?_mono (hw : w.IsSound) {w' : Workspace} (hw' : w'.IsSound) (hhere : w'.here = w.here)
    (hkeep : ∀ names contents, w.root.findAt? names = some (.folder contents) →
      ∃ contents', w'.root.findAt? names = some (.folder contents'))
    {place : List String} (h : w.place? path = some place) : w'.place? path = some place := by
  obtain ⟨trail, before, name, hleads, rfl⟩ := place?_eq_some hw h
  obtain ⟨hstart, hnames⟩ := hw.startTrail path.toList
  obtain ⟨hstart', hnames'⟩ := hw'.startTrail path.toList
  have hsame : trailNames (w'.startTrail path.toList) = trailNames (w.startTrail path.toList) := by
    rw [hnames, hnames', startNames, startNames, hhere]
  obtain ⟨trail', hwalk, hleads', heq⟩ := walk_mono hkeep hstart hstart' hsame hleads.walk
  have hleads'' : w'.LeadsTo path trail' before name :=
    ⟨hleads.toFile, hleads.components, hleads.isName, hwalk, hleads'⟩
  rw [hleads''.place?, heq]

end CustomFunctions.Workspace
