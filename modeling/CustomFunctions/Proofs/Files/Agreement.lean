import CustomFunctions.Proofs.Files.Folder

/-!
# Changes to folders

What a change at one place of a folder leaves as it was: the files at other places, the folders, and
the order in which a walk comes to the files. Files are set and removed in an inner folder, so each
change is one to the entries of a folder, carried up to the root.

## Main definitions

- `Folder.Agrees` — a folder with the same files at the places that count
- `Folder.updateAt` — a change to an inner folder
- `Folder.agrees_set_file`, `Folder.agrees_set_empty`, `Folder.agrees_erase`,
  `Folder.agrees_updateAt` — what the changes keep
-/

namespace CustomFunctions.Folder

-- ════════════════════════════════════════════════════════════════════════
-- Agreement
-- ════════════════════════════════════════════════════════════════════════

/-- The later folder has the same files at the places that count, and every folder still, where a walk
comes to the places that count in the same order. -/
structure Agrees (keep : List String → Bool) (f f' : Folder) : Prop where
  files : ∀ names, keep names = true → f'.fileAt? names = f.fileAt? names
  folders : ∀ names contents, f.findAt? names = some (.folder contents) →
    ∃ contents', f'.findAt? names = some (.folder contents') ∧
      contents'.places.filter (fun rest => keep (names ++ rest)) =
        contents.places.filter (fun rest => keep (names ++ rest))

section

variable {keep : List String → Bool}

theorem Agrees.refl (f : Folder) : Agrees keep f f :=
  ⟨fun _ _ => rfl, fun _ contents h => ⟨contents, h, rfl⟩⟩

theorem Agrees.trans {f g h : Folder} (hfg : Agrees keep f g) (hgh : Agrees keep g h) :
    Agrees keep f h := by
  refine ⟨fun names hnames => (hgh.files names hnames).trans (hfg.files names hnames), ?_⟩
  intro names contents hcontents
  obtain ⟨contents', hcontents', hplaces⟩ := hfg.folders names contents hcontents
  obtain ⟨contents'', hcontents'', hplaces'⟩ := hgh.folders names contents' hcontents'
  exact ⟨contents'', hcontents'', hplaces'.trans hplaces⟩

/-- Fewer places may count. -/
theorem Agrees.mono {keep' : List String → Bool} {f f' : Folder} (h : Agrees keep f f')
    (hkeep : ∀ names, keep' names = true → keep names = true) : Agrees keep' f f' := by
  refine ⟨fun names hnames => h.files names (hkeep names hnames), fun names contents hcontents => ?_⟩
  obtain ⟨contents', hcontents', hplaces⟩ := h.folders names contents hcontents
  refine ⟨contents', hcontents', ?_⟩
  have hfilter : ∀ places : List (List String),
      places.filter (fun rest => keep' (names ++ rest)) =
        (places.filter fun rest => keep (names ++ rest)).filter fun rest => keep' (names ++ rest) := by
    intro places
    rw [List.filter_filter]
    refine List.filter_congr fun rest _ => ?_
    rw [Bool.eq_iff_iff, Bool.and_eq_true]
    exact ⟨fun h => ⟨h, hkeep _ h⟩, And.left⟩
  rw [hfilter, hplaces, ← hfilter]

/-- A change to one entry. -/
theorem agrees_of_find? {f f' : Folder} (name : String)
    (hothers : ∀ other, name ≠ other → f'.find? other = f.find? other)
    (hfiles : ∀ names, keep (name :: names) = true → f'.fileAt? (name :: names) =
      f.fileAt? (name :: names))
    (hfolders : ∀ names contents, f.findAt? (name :: names) = some (.folder contents) →
      ∃ contents', f'.findAt? (name :: names) = some (.folder contents') ∧
        contents'.places.filter (fun rest => keep (name :: names ++ rest)) =
          contents.places.filter (fun rest => keep (name :: names ++ rest)))
    (hplaces : f'.places.filter keep = f.places.filter keep) : Agrees keep f f' := by
  constructor
  · rintro (_ | ⟨other, names⟩) hkeep
    · rfl
    · by_cases heq : name = other
      · subst heq
        exact hfiles names hkeep
      · rw [fileAt?_cons, fileAt?_cons, hothers other heq]
  · rintro (_ | ⟨other, names⟩) contents hcontents
    · obtain rfl : f = contents := by
        rw [findAt?] at hcontents
        exact Entry.folder.inj (Option.some.inj hcontents)
      exact ⟨f', rfl, hplaces⟩
    · by_cases heq : name = other
      · subst heq
        exact hfolders names contents hcontents
      · refine ⟨contents, ?_, rfl⟩
        rwa [findAt?_cons, hothers other heq, ← findAt?_cons]

/-- Where no folder stands, no way goes on, and what stands there is a file. -/
theorem file_of_findAt?_cons {f : Folder} {name : String}
    (hold : ∀ contents, f.find? name ≠ some (.folder contents)) {names : List String} {entry : Entry}
    (h : f.findAt? (name :: names) = some entry) : names = [] ∧ ∃ bytes, entry = .file bytes := by
  rw [findAt?_cons] at h
  obtain ⟨first, hfirst, hrest⟩ := Option.bind_eq_some_iff.mp h
  cases first with
  | folder contents => exact absurd hfirst (hold contents)
  | file bytes =>
    obtain ⟨hnil, heq⟩ := Option.ite_none_right_eq_some.mp hrest
    exact ⟨hnil, bytes, (Option.some.inj heq).symm⟩

theorem findAt?_cons_ne_folder {f : Folder} {name : String}
    (hold : ∀ contents, f.find? name ≠ some (.folder contents)) (names : List String)
    (contents : Folder) : f.findAt? (name :: names) ≠ some (.folder contents) := by
  intro h
  obtain ⟨_, bytes, heq⟩ := file_of_findAt?_cons hold h
  cases heq

/-- Behind a file nothing counts if the file does not. -/
theorem filter_places_file {name : String} (hkeep : keep [name] = false) (bytes : ByteArray) :
    (Entry.places name (.file bytes)).filter keep = [] := by
  rw [Entry.places, List.filter_cons_of_neg (by simp [hkeep]), List.filter_nil]

theorem ne_nil_of_keep {name : String} (hkeep : keep [name] = false) {names : List String}
    (h : keep (name :: names) = true) : names ≠ [] := by
  rintro rfl
  rw [hkeep] at h
  exact Bool.noConfusion h

/-- A file that does not count is put where no folder stands. -/
theorem agrees_set_file {f : Folder} (hf : f.IsSound) {name : String} (hkeep : keep [name] = false)
    (hold : ∀ contents, f.find? name ≠ some (.folder contents)) (bytes : ByteArray) :
    Agrees keep f (f.set name (.file bytes)) := by
  refine agrees_of_find? name (fun other hne => ?_) (fun names hnames => ?_)
    (fun names contents h => absurd h (findAt?_cons_ne_folder hold names contents)) ?_
  · rw [find?_set, if_neg hne]
  · have hne := ne_nil_of_keep hkeep hnames
    rw [fileAt?, fileAt?, findAt?_cons, find?_set, if_pos rfl, Option.bind_some, Entry.findAt?,
      if_neg hne]
    cases hfind : f.findAt? (name :: names) with
    | none => rfl
    | some entry => exact absurd (file_of_findAt?_cons hold hfind).1 hne
  · refine filter_places_set hf ?_
    rw [filter_places_file hkeep]
    cases hfind : f.find? name with
    | none => rfl
    | some first =>
      cases first with
      | folder contents => exact absurd hfind (hold contents)
      | file old => exact (filter_places_file hkeep old).symm

/-- An empty folder is put where nothing stands. -/
theorem agrees_set_empty {f : Folder} (hf : f.IsSound) {name : String} (hnew : f.find? name = none) :
    Agrees keep f (f.set name (.folder .empty)) := by
  have hnothing : ∀ names, f.findAt? (name :: names) = none := by
    intro names
    rw [findAt?_cons, hnew, Option.bind_none]
  refine agrees_of_find? name (fun other hne => ?_) (fun names _ => ?_) (fun names contents h => ?_) ?_
  · rw [find?_set, if_neg hne]
  · rw [fileAt?, fileAt?, hnothing, findAt?_cons, find?_set, if_pos rfl, Option.bind_some]
    cases names with
    | nil => rfl
    | cons next rest =>
      rw [Entry.findAt?, findAt?_cons]
      rfl
  · rw [hnothing] at h
    cases h
  · refine filter_places_set hf ?_
    rw [hnew]
    rfl

/-- A file that does not count is removed. -/
theorem agrees_erase {f : Folder} (hf : f.IsSound) {name : String} (hkeep : keep [name] = false)
    {bytes : ByteArray} (hfind : f.find? name = some (.file bytes)) :
    Agrees keep f (f.erase name) := by
  have hold : ∀ contents, f.find? name ≠ some (.folder contents) := by
    intro contents h
    cases hfind.symm.trans h
  refine agrees_of_find? name (fun other hne => ?_) (fun names hnames => ?_)
    (fun names contents h => absurd h (findAt?_cons_ne_folder hold names contents)) ?_
  · rw [find?_erase hf, if_neg hne]
  · have hne := ne_nil_of_keep hkeep hnames
    rw [fileAt?_cons, fileAt?_cons, find?_erase hf, if_pos rfl, hfind]
    simp [Entry.findAt?, hne]
  · refine filter_places_erase ?_
    rw [hfind, Option.elim_some, filter_places_file hkeep]

/-- A change in one of the inner folders. -/
theorem agrees_set_folder {f : Folder} (hf : f.IsSound) {name : String} {contents contents' : Folder}
    (hfind : f.find? name = some (.folder contents))
    (h : Agrees (fun names => keep (name :: names)) contents contents') :
    Agrees keep f (f.set name (.folder contents')) := by
  have hnew : ∀ names, (f.set name (.folder contents')).findAt? (name :: names) =
      contents'.findAt? names := by
    intro names
    rw [findAt?_cons, find?_set, if_pos rfl]
    rfl
  have hold : ∀ names, f.findAt? (name :: names) = contents.findAt? names := by
    intro names
    rw [findAt?_cons, hfind]
    rfl
  refine agrees_of_find? name (fun other hne => ?_) (fun names hkeep => ?_)
    (fun names inner hinner => ?_) ?_
  · rw [find?_set, if_neg hne]
  · rw [fileAt?, fileAt?, hnew, hold]
    exact h.files names hkeep
  · rw [hold] at hinner
    rw [hnew]
    exact h.folders names inner hinner
  · obtain ⟨_, hself, hplaces⟩ := h.folders [] contents rfl
    rw [findAt?] at hself
    obtain rfl := Entry.folder.inj (Option.some.inj hself)
    refine filter_places_set hf ?_
    rw [hfind, Option.elim_some, Entry.places, Entry.places, List.filter_map, List.filter_map]
    exact congrArg _ hplaces

-- ════════════════════════════════════════════════════════════════════════
-- Changes in an inner folder
-- ════════════════════════════════════════════════════════════════════════

/-- The folder with a change to the folder at the end of a path of names. -/
def updateAt (change : Folder → Folder) : List String → Folder → Folder
  | [], root => change root
  | name :: rest, root =>
    match root.find? name with
    | some (.folder contents) => root.set name (.folder (contents.updateAt change rest))
    | _ => root

variable {f : Folder} {change : Folder → Folder} {names : List String} {contents : Folder}

/-- The first step on the way to an inner folder. -/
theorem findAt?_cons_eq_folder {name : String}
    (h : f.findAt? (name :: names) = some (.folder contents)) :
    ∃ inner, f.find? name = some (.folder inner) ∧ inner.findAt? names = some (.folder contents) := by
  rw [findAt?_cons] at h
  obtain ⟨first, hfirst, hrest⟩ := Option.bind_eq_some_iff.mp h
  cases first with
  | folder inner => exact ⟨inner, hfirst, hrest⟩
  | file bytes => cases (Option.ite_none_right_eq_some.mp hrest).2

/-- Setting an entry of an inner folder that is there. -/
theorem setAt_eq_updateAt (h : f.findAt? names = some (.folder contents)) (entry : Entry)
    (name : String) : f.setAt entry (names ++ [name]) = f.updateAt (·.set name entry) names := by
  induction names generalizing f with
  | nil => rfl
  | cons first names ih =>
    obtain ⟨inner, hfind, hinner⟩ := findAt?_cons_eq_folder h
    rw [List.cons_append, setAt, updateAt, hfind]
    · simp only [ih hinner]
    · exact List.append_ne_nil_of_right_ne_nil names (List.cons_ne_nil _ _)

theorem findAt?_updateAt (h : f.findAt? names = some (.folder contents)) (rest : List String) :
    (f.updateAt change names).findAt? (names ++ rest) = (change contents).findAt? rest := by
  induction names generalizing f with
  | nil =>
    rw [findAt?] at h
    rw [updateAt, Entry.folder.inj (Option.some.inj h), List.nil_append]
  | cons name names ih =>
    obtain ⟨inner, hfind, hinner⟩ := findAt?_cons_eq_folder h
    rw [updateAt, hfind, List.cons_append, findAt?_cons, find?_set, if_pos rfl]
    exact ih hinner

/-- An entry is found where it has been set. -/
theorem findAt?_setAt (h : f.findAt? names = some (.folder contents)) (entry : Entry)
    (name : String) : (f.setAt entry (names ++ [name])).findAt? (names ++ [name]) = some entry := by
  rw [setAt_eq_updateAt h, findAt?_updateAt h, findAt?, find?_set, if_pos rfl]

theorem IsSound.updateAt (hf : f.IsSound) (h : f.findAt? names = some (.folder contents))
    (hchange : (change contents).IsSound) : (f.updateAt change names).IsSound := by
  induction names generalizing f with
  | nil =>
    rw [findAt?] at h
    rwa [Folder.updateAt, Entry.folder.inj (Option.some.inj h)]
  | cons name names ih =>
    obtain ⟨inner, hfind, hinner⟩ := findAt?_cons_eq_folder h
    obtain ⟨hname, hsound⟩ := hf.of_find? hfind
    rw [Folder.updateAt, hfind]
    exact hf.set hname (ih hsound hinner)

/-- A change in an inner folder that keeps what counts there. -/
theorem agrees_updateAt (hf : f.IsSound) (h : f.findAt? names = some (.folder contents))
    (hchange : Agrees (fun rest => keep (names ++ rest)) contents (change contents)) :
    Agrees keep f (f.updateAt change names) := by
  induction names generalizing f keep with
  | nil =>
    rw [findAt?] at h
    rwa [updateAt, Entry.folder.inj (Option.some.inj h)]
  | cons name names ih =>
    obtain ⟨inner, hfind, hinner⟩ := findAt?_cons_eq_folder h
    rw [updateAt, hfind]
    exact agrees_set_folder hf hfind (ih (hf.of_find? hfind).2 hinner hchange)

/-- Setting a folder that is there already changes nothing. -/
theorem setAt_self (hf : f.IsSound) (h : f.findAt? names = some (.folder contents)) :
    f.setAt (.folder contents) names = f := by
  induction names generalizing f with
  | nil => rfl
  | cons name names ih =>
    obtain ⟨inner, hfind, hinner⟩ := findAt?_cons_eq_folder h
    cases names with
    | nil =>
      rw [findAt?] at hinner
      obtain rfl := Entry.folder.inj (Option.some.inj hinner)
      exact set_self hf hfind
    | cons next names =>
      rw [setAt, hfind]
      · simp only [ih (hf.of_find? hfind).2 hinner]
        exact set_self hf hfind
      · exact List.cons_ne_nil next names

end

end CustomFunctions.Folder
