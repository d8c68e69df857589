import CustomFunctions.Proofs.Failure
import CustomFunctions.Proofs.Files.Place

/-!
# Saving and removing files

Saving a file makes the folders that are missing on the way to it and writes the file. All other files
stay as they are, and so do the folders, so paths lead to the same places as before.

## Main definitions

- `Workspace.Keeps` — a later workspace with the same files at the places that count
- `Workspace.save` — the workspace with a file written and the folders made that it stands in
- `Workspace.remove` — the workspace without a file
- `Workspace.save_saves`, `Workspace.remove_removes` — what saving and removing change and keep
-/

namespace CustomFunctions.Workspace

open CustomFunctions.Path (IsName)

-- ════════════════════════════════════════════════════════════════════════
-- Later workspaces
-- ════════════════════════════════════════════════════════════════════════

/-- The later workspace has the same files at the places that count and all folders still. -/
structure Keeps (keep : List String → Bool) (w w' : Workspace) : Prop where
  here : w'.here = w.here
  root : w.root.Agrees keep w'.root
  sound : w'.IsSound

variable {keep : List String → Bool} {w w' : Workspace} {path : String}

theorem Keeps.refl (hw : w.IsSound) : Keeps keep w w :=
  ⟨rfl, .refl _, hw⟩

theorem Keeps.trans {w'' : Workspace} (h : Keeps keep w w') (h' : Keeps keep w' w'') :
    Keeps keep w w'' :=
  ⟨h'.here.trans h.here, h.root.trans h'.root, h'.sound⟩

theorem Keeps.mono {keep' : List String → Bool} (h : Keeps keep w w')
    (hkeep : ∀ names, keep' names = true → keep names = true) : Keeps keep' w w' :=
  ⟨h.here, h.root.mono hkeep, h.sound⟩

theorem Keeps.folders (h : Keeps keep w w') {names : List String} {contents : Folder}
    (hfind : w.root.findAt? names = some (.folder contents)) :
    ∃ contents', w'.root.findAt? names = some (.folder contents') := by
  obtain ⟨contents', hcontents', _⟩ := h.root.folders names contents hfind
  exact ⟨contents', hcontents'⟩

theorem keeps_of_root (hw : w.IsSound) {root : Folder} (hroot : root.IsSound)
    (h : w.root.Agrees keep root) : Keeps keep w { w with root } := by
  refine ⟨rfl, h, hroot, ?_⟩
  obtain ⟨contents, hhere⟩ := hw.here
  obtain ⟨contents', hhere', _⟩ := h.folders _ _ hhere
  exact ⟨contents', hhere'⟩

/-- Paths lead to the same places. -/
theorem Keeps.place? (h : Keeps keep w w') (hw : w.IsSound) {place : List String}
    (hplace : w.place? path = some place) : w'.place? path = some place :=
  place?_mono hw h.sound h.here (fun _ _ hfind => h.folders hfind) hplace

/-- A file that counts is found where it was. -/
theorem Keeps.entry (h : Keeps keep w w') (hw : w.IsSound) {place : List String}
    (hplace : w.place? path = some place) (hkeep : keep place = true) {bytes : ByteArray}
    (hentry : w.entry path = .ok (.file bytes)) : w'.entry path = .ok (.file bytes) := by
  obtain ⟨place', hplace', hfind⟩ := place_of_entry hw hentry
  obtain rfl : place = place' := Option.some.inj (hplace.symm.trans hplace')
  have hfile := h.root.files place hkeep
  rw [Folder.fileAt?, Folder.fileAt?, hfind] at hfile
  obtain ⟨found, hfound, hbytes⟩ := Option.bind_eq_some_iff.mp hfile
  rw [entry_of_place h.sound (h.place? hw hplace), hfound]
  cases found with
  | folder contents => cases hbytes
  | file content => rw [← Option.some.inj hbytes]

/-- Where nothing was, there is nothing unless a folder was made. -/
theorem Keeps.findAt?_eq_none (h : Keeps keep w w') {place : List String} (hkeep : keep place = true)
    (hfind : w.root.findAt? place = none)
    (hfolder : ∀ contents, w'.root.findAt? place ≠ some (.folder contents)) :
    w'.root.findAt? place = none := by
  have hfile := h.root.files place hkeep
  rw [Folder.fileAt?, Folder.fileAt?, hfind] at hfile
  cases hfind' : w'.root.findAt? place with
  | none => rfl
  | some found =>
    cases found with
    | folder contents => exact absurd hfind' (hfolder contents)
    | file bytes =>
      rw [hfind'] at hfile
      cases hfile

theorem text_of_entry {text : String} (h : w.entry path = .ok (.file text.toUTF8)) :
    w.text path = .ok text := by
  have hread : String.fromUTF8? text.toUTF8 = some text := by
    simp only [String.fromUTF8?, String.toUTF8_eq_toByteArray, dif_pos text.isValidUTF8]
    rfl
  rw [text_eq h, hread]
  rfl

-- ════════════════════════════════════════════════════════════════════════
-- Making folders
-- ════════════════════════════════════════════════════════════════════════

/-- The components lead to a folder. -/
def IsWalkable (w : Workspace) (path : List Char) (components : List (List Char)) : Prop :=
  ∃ trail, LeadsFrom w.root trail ∧
    walk false w.root (w.startTrail path) components = .ok (trail, .folder (top w.root trail))

theorem isWalkable_nil (hw : w.IsSound) (path : List Char) : w.IsWalkable path [] :=
  ⟨_, (hw.startTrail path).1, rfl⟩

/-- A walk to a folder takes the same way. -/
theorem Keeps.walk (h : Keeps keep w w') (hw : w.IsSound) {path : List Char}
    {components : List (List Char)} {trail : Trail} {contents : Folder}
    (hwalk : walk false w.root (w.startTrail path) components = .ok (trail, .folder contents)) :
    ∃ trail', LeadsFrom w'.root trail' ∧ trailNames trail' = trailNames trail ∧
      walk false w'.root (w'.startTrail path) components =
        .ok (trail', .folder (top w'.root trail')) := by
  obtain ⟨hstart, hnames⟩ := hw.startTrail path
  obtain ⟨hstart', hnames'⟩ := h.sound.startTrail path
  have hsame : trailNames (w'.startTrail path) = trailNames (w.startTrail path) := by
    rw [hnames, hnames', startNames, startNames, h.here]
  obtain ⟨trail', hwalk', hleads', heq⟩ :=
    walk_mono (fun _ _ hfind => h.folders hfind) hstart hstart' hsame hwalk
  exact ⟨trail', hleads', heq, hwalk'⟩

/-- An empty folder is made in a folder that has nothing of that name. -/
theorem keeps_newFolder (hw : w.IsSound) {trail : Trail} (hleads : LeadsFrom w.root trail)
    {name : String} (hname : IsName name.toList) (hnew : (top w.root trail).find? name = none) :
    Keeps (fun _ => true) w
      { w with root := w.root.setAt (.folder .empty) (trailNames trail ++ [name]) } := by
  have hfolder := hleads.findAt?
  have hsound := (hw.root.of_findAt? hfolder).2
  rw [Folder.setAt_eq_updateAt hfolder]
  refine keeps_of_root hw (hw.root.updateAt hfolder (hsound.set hname trivial)) ?_
  exact Folder.agrees_updateAt hw.root hfolder (Folder.agrees_set_empty hsound hnew)

/-- A folder that is there already is put where it stands. -/
theorem makeFolder_of_walk (hw : w.IsSound) {path : List Char} {components : List (List Char)}
    {trail : Trail} (hleads : LeadsFrom w.root trail)
    (hwalk : walk false w.root (w.startTrail path) components =
      .ok (trail, .folder (top w.root trail))) : w.makeFolder path components = .ok w := by
  have hroot : w.root.setAt (.folder (top w.root trail)) (trailNames trail) = w.root :=
    Folder.setAt_self hw.root hleads.findAt?
  rw [makeFolder, walk_true hwalk]
  exact congrArg (fun root => Except.ok { w with root }) hroot

/-- The way to a new folder goes on to it. -/
theorem Keeps.isWalkable_concat (h : Keeps keep w w') (hw : w.IsSound) {path : List Char}
    {before : List (List Char)} {trail : Trail} (hleads : LeadsFrom w.root trail)
    (hwalk : Workspace.walk false w.root (w.startTrail path) before =
      .ok (trail, .folder (top w.root trail)))
    {component : List Char} (hup : component ≠ Path.up)
    (hroot : w'.root =
      w.root.setAt (.folder .empty) (trailNames trail ++ [String.ofList component])) :
    w'.IsWalkable path (before ++ [component]) := by
  obtain ⟨trail', hleads', heq, hwalk'⟩ := h.walk hw hwalk
  have hplace : w'.root.findAt? (trailNames trail ++ [String.ofList component]) =
      some (.folder .empty) := by
    rw [hroot]
    exact Folder.findAt?_setAt hleads.findAt? _ _
  have hfind : (top w'.root trail').find? (String.ofList component) = some (.folder .empty) := by
    rwa [← heq, Folder.findAt?_append, hleads'.findAt?, Option.bind_some, Entry.findAt?,
      Folder.findAt?] at hplace
  refine ⟨_, hleads'.cons hfind, ?_⟩
  rw [walk_append, hwalk']
  simp only [Workspace.walk, if_neg hup, hfind]

/-- Making the next folder on the way. -/
theorem makeFolder_keeps (hw : w.IsSound) {path : List Char} {before : List (List Char)}
    (hbefore : w.IsWalkable path before) {component : List Char}
    (hname : component ≠ Path.up → IsName component)
    (h : w.makeFolder path (before ++ [component]) = .ok w') :
    Keeps (fun _ => true) w w' ∧ w'.IsWalkable path (before ++ [component]) := by
  obtain ⟨trail, hleads, hwalk⟩ := hbefore
  have hthere : ∀ trail', LeadsFrom w.root trail' →
      walk false w.root trail [component] = .ok (trail', .folder (top w.root trail')) →
      Keeps (fun _ => true) w w' ∧ w'.IsWalkable path (before ++ [component]) := by
    intro trail' hleads' hstep
    have hend : walk false w.root (w.startTrail path) (before ++ [component]) =
        .ok (trail', .folder (top w.root trail')) := by
      rw [walk_append, hwalk]
      exact hstep
    obtain rfl : w = w' := Except.ok.inj ((makeFolder_of_walk hw hleads' hend).symm.trans h)
    exact ⟨.refl hw, trail', hleads', hend⟩
  by_cases hup : component = Path.up
  · refine hthere trail.tail hleads.tail ?_
    rw [walk, if_pos hup]
    rfl
  cases hfind : (top w.root trail).find? (String.ofList component) with
  | some found =>
    cases found with
    | folder contents =>
      refine hthere ((String.ofList component, contents) :: trail) (hleads.cons hfind) ?_
      simp only [walk, if_neg hup, hfind]
    | file bytes =>
      rw [makeFolder, walk_append, walk_true hwalk] at h
      simp only [walk, if_neg hup, hfind, if_true, bind, Except.bind] at h
      cases h
  | none =>
    rw [makeFolder, walk_append, walk_true hwalk] at h
    simp only [walk, if_neg hup, hfind, if_true, bind, Except.bind, List.head?_cons, Option.map_some,
      Option.getD_some] at h
    have hw' : w' = { w with
        root := w.root.setAt (.folder .empty) (trailNames trail ++ [String.ofList component]) } := by
      rw [← trailNames_cons _ .empty]
      exact (Except.ok.inj h).symm
    have hname' : IsName (String.ofList component).toList := by
      rw [String.toList_ofList]
      exact hname hup
    have hkeeps : Keeps (fun _ => true) w w' := by
      rw [hw']
      exact keeps_newFolder hw hleads hname' hfind
    exact ⟨hkeeps, hkeeps.isWalkable_concat hw hleads hwalk hup (by rw [hw'])⟩

theorem isName_of_mem_components {path component : List Char} (h : component ∈ Path.components path)
    (hup : component ≠ Path.up) : IsName component := by
  obtain ⟨hmem, hne⟩ := List.mem_filter.mp h
  rw [Bool.and_eq_true, decide_eq_true_iff, decide_eq_true_iff] at hne
  exact ⟨hne.1, Path.not_mem_of_mem_splitOn hmem, hne.2, hup⟩

/-- Making one folder after the other on the way. -/
theorem makeFolders_keeps (hw : w.IsSound) {path : List Char} {before rest : List (List Char)}
    (hbefore : w.IsWalkable path before)
    (hnames : ∀ component ∈ rest, component ≠ Path.up → IsName component)
    (h : w.makeFolders path before rest = .ok w') : Keeps (fun _ => true) w w' := by
  induction rest generalizing w before with
  | nil =>
    obtain rfl := Except.ok.inj h
    exact .refl hw
  | cons component rest ih =>
    rw [List.forall_mem_cons] at hnames
    rw [makeFolders] at h
    obtain ⟨next, hnext, h⟩ := bind_eq_ok.mp h
    obtain ⟨hkeeps, hwalk⟩ := makeFolder_keeps hw hbefore hnames.1 hnext
    exact hkeeps.trans (ih hkeeps.sound hwalk hnames.2 h)

/-- Making the folder that a file is to stand in. -/
theorem makeParent_keeps (hw : w.IsSound) (h : w.makeParent path = .ok w') :
    Keeps (fun _ => true) w w' := by
  rw [makeParent] at h
  split at h
  · obtain rfl := Except.ok.inj h
    exact .refl hw
  · split at h
    · obtain rfl := Except.ok.inj h
      exact .refl hw
    · refine makeFolders_keeps hw (isWalkable_nil hw _) (fun component hmem hup => ?_) h
      exact isName_of_mem_components ((List.dropLast_sublist _).subset hmem) hup

-- ════════════════════════════════════════════════════════════════════════
-- Writing and saving
-- ════════════════════════════════════════════════════════════════════════

/-- The workspace in which a text has been written to the file at a path, with the folders on the way
to it. -/
def save (w : Workspace) (path text : String) : Except FileFault Workspace := do
  (← w.makeParent path).write path text

/-- The text stands in the file at the path, and all other files are as before. -/
structure Saves (w : Workspace) (path text : String) (place : List String) (w' : Workspace) :
    Prop where
  leads : w'.place? path = some place
  found : w'.root.findAt? place = some (.file text.toUTF8)
  keeps : w.Keeps (fun names => names ≠ place) w'

/-- How a text comes to be written. -/
theorem leadsTo_of_write (hw : w.IsSound) {text : String} (h : w.write path text = .ok w') :
    ∃ trail before name, w.LeadsTo path trail before name ∧
      (∀ contents, (top w.root trail).find? (String.ofList name) ≠ some (.folder contents)) ∧
      w' = { w with
        root := w.root.setAt (.file text.toUTF8) (trailNames trail ++ [String.ofList name]) } := by
  rw [write] at h
  dsimp only at h
  split at h
  · cases h
  split at h
  · cases h
  next name hlast =>
  obtain ⟨⟨trail, found⟩, hwalk, h⟩ := bind_eq_ok.mp h
  cases found with
  | file bytes => cases h
  | folder contents =>
    obtain rfl := walk_folder hwalk
    dsimp only at h
    -- whatever stands there, a path that can only lead to a folder is refused
    have htoFile : Path.endsInFolder path.toList = false := by
      by_contra hfolder
      rw [Bool.not_eq_false] at hfolder
      simp only [hfolder, if_true] at h
      split at h <;> cases h
    obtain ⟨before, last, hcomponents, hname⟩ := Path.components_concat htoFile
    rw [hcomponents, List.getLast?_concat] at hlast
    obtain rfl := Option.some.inj hlast
    rw [hcomponents, List.dropLast_concat] at hwalk
    refine ⟨trail, before, last, ⟨htoFile, hcomponents, hname, hwalk, ?_⟩, ?_⟩
    · exact (hw.startTrail _).1.walk hwalk
    simp only [htoFile, Bool.false_eq_true, if_false] at h
    split at h
    · cases h
    · next hfind => exact ⟨by rw [hfind]; nofun, (Except.ok.inj h).symm⟩
    · next hfind => exact ⟨by rw [hfind]; nofun, (Except.ok.inj h).symm⟩

/-- Writing a text. -/
theorem write_saves (hw : w.IsSound) {text : String} (h : w.write path text = .ok w') :
    ∃ place, w.Saves path text place w' := by
  obtain ⟨trail, before, name, hleads, hfind, hw'⟩ := leadsTo_of_write hw h
  have hfolder := hleads.leads.findAt?
  have hsound := (hw.root.of_findAt? hfolder).2
  have hname : IsName (String.ofList name).toList := by
    rw [String.toList_ofList]
    exact hleads.isName
  have hkeeps : w.Keeps (fun names => names ≠ trailNames trail ++ [String.ofList name]) w' := by
    rw [hw', Folder.setAt_eq_updateAt hfolder]
    refine keeps_of_root hw (hw.root.updateAt hfolder (hsound.set hname trivial)) ?_
    exact Folder.agrees_updateAt hw.root hfolder
      (Folder.agrees_set_file hsound (by simp) hfind text.toUTF8)
  refine ⟨_, hkeeps.place? hw hleads.place?, ?_, hkeeps⟩
  rw [hw']
  exact Folder.findAt?_setAt hfolder _ _

/-- Saving a text. -/
theorem save_saves (hw : w.IsSound) {text : String} (h : w.save path text = .ok w') :
    ∃ place, w.Saves path text place w' := by
  obtain ⟨w₁, hparent, hwrite⟩ := bind_eq_ok.mp h
  have hkeeps := makeParent_keeps hw hparent
  obtain ⟨place, hleads, hfound, hwritten⟩ := write_saves hkeeps.sound hwrite
  exact ⟨place, hleads, hfound, (hkeeps.mono fun _ _ => rfl).trans hwritten⟩

theorem Saves.text {text : String} {place : List String} (h : w.Saves path text place w') :
    w'.text path = .ok text := by
  refine text_of_entry ?_
  rw [entry_of_place h.keeps.sound h.leads, h.found]

-- ════════════════════════════════════════════════════════════════════════
-- Removing
-- ════════════════════════════════════════════════════════════════════════

/-- The workspace without the file at a path. -/
def remove (w : Workspace) (path : String) : Except FileFault Workspace :=
  match w.entry path, w.place? path with
  | .error fault, _ => .error fault
  | .ok (.file _), some place =>
    .ok { w with root := w.root.updateAt (·.erase (place.getLast?.getD "")) place.dropLast }
  | _, _ => .error .isFolder

/-- Nothing stands at the path, and all other files are as before. -/
structure Removes (w : Workspace) (path : String) (place : List String) (w' : Workspace) : Prop where
  leads : w'.place? path = some place
  gone : w'.root.findAt? place = none
  keeps : w.Keeps (fun names => names ≠ place) w'

/-- Removing a file. -/
theorem remove_removes (hw : w.IsSound) (h : w.remove path = .ok w') :
    ∃ place, w.Removes path place w' := by
  rw [remove] at h
  split at h
  · cases h
  · next bytes place hentry hplace =>
    obtain ⟨trail, before, name, hleads, rfl⟩ := place?_eq_some hw hplace
    rw [entry_of_place hw hplace, hleads.findAt?] at hentry
    have hfind : (top w.root trail).find? (String.ofList name) = some (.file bytes) := by
      split at hentry
      · next hfind => rw [hfind, Except.ok.inj hentry]
      · cases hentry
    rw [List.getLast?_concat, List.dropLast_concat, Option.getD_some] at h
    have hw' := Except.ok.inj h
    have hfolder := hleads.leads.findAt?
    have hsound := (hw.root.of_findAt? hfolder).2
    have hkeeps : w.Keeps (fun names => names ≠ trailNames trail ++ [String.ofList name]) w' := by
      rw [← hw']
      refine keeps_of_root hw (hw.root.updateAt hfolder (hsound.erase _)) ?_
      exact Folder.agrees_updateAt hw.root hfolder (Folder.agrees_erase hsound (by simp) hfind)
    refine ⟨_, hkeeps.place? hw hplace, ?_, hkeeps⟩
    rw [← hw', Folder.findAt?_updateAt hfolder, Folder.findAt?, Folder.find?_erase hsound, if_pos rfl]
  · cases h

end CustomFunctions.Workspace
