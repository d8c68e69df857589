import CustomFunctions.Files.Folder
import Mathlib.Data.List.Basic

/-!
# Entries of folders

A folder finds its entries by name, and a path of names leads to what stands at its end. Setting and
removing an entry keeps the entries in the order of their names, and a walk comes to the other files in
the same order as before.

## Main definitions

- `Folder.IsSound` — the entries stand in the order of their names, and the names can stand in paths
- `Folder.erase` — the folder without an entry
- `Folder.fileAt?` — the file at the end of a path of names
- `Folder.places` — the places of all files, in the order of a walk
- `Folder.find?_set`, `Folder.find?_erase`, `Folder.findAt?_append` — what is found where
-/

namespace CustomFunctions

-- ════════════════════════════════════════════════════════════════════════
-- Sound folders
-- ════════════════════════════════════════════════════════════════════════

/-- The text can be a component of a path. -/
def Path.IsName (s : List Char) : Prop :=
  s ≠ [] ∧ '/' ∉ s ∧ s ≠ ['.'] ∧ s ≠ Path.up

instance (s : List Char) : Decidable (Path.IsName s) :=
  inferInstanceAs (Decidable (s ≠ [] ∧ '/' ∉ s ∧ s ≠ ['.'] ∧ s ≠ Path.up))

/-- The names of the entries. -/
def Folder.names : Folder → List String
  | .empty => []
  | .file name _ others => name :: others.names
  | .folder name _ others => name :: others.names

/-- The entries stand in the order of their names, no two have one name, and the names can stand in
paths. -/
def Folder.IsSound : Folder → Prop
  | .empty => True
  | .file name _ others =>
    Path.IsName name.toList ∧ (∀ other ∈ others.names, name < other) ∧ others.IsSound
  | .folder name contents others =>
    Path.IsName name.toList ∧ (∀ other ∈ others.names, name < other) ∧ contents.IsSound ∧
      others.IsSound

instance Folder.decidableIsSound : (f : Folder) → Decidable f.IsSound
  | .empty => inferInstanceAs (Decidable True)
  | .file name _ others =>
    have := decidableIsSound others
    inferInstanceAs (Decidable
      (Path.IsName name.toList ∧ (∀ other ∈ others.names, name < other) ∧ others.IsSound))
  | .folder name contents others =>
    have := decidableIsSound contents
    have := decidableIsSound others
    inferInstanceAs (Decidable (Path.IsName name.toList ∧
      (∀ other ∈ others.names, name < other) ∧ contents.IsSound ∧ others.IsSound))

/-- The places of all files, in the order of a walk. -/
def Folder.places : Folder → List (List String)
  | .empty => []
  | .file name _ others => [name] :: others.places
  | .folder name contents others => contents.places.map (name :: ·) ++ others.places

namespace Entry

/-- What the entry holds is sound. -/
def IsSound : Entry → Prop
  | file _ => True
  | folder contents => contents.IsSound

/-- What stands at the end of a path of names behind the entry. -/
def findAt? (names : List String) : Entry → Option Entry
  | file bytes => if names = [] then some (file bytes) else none
  | folder contents => contents.findAt? names

@[simp] theorem findAt?_nil (e : Entry) : e.findAt? [] = some e := by
  cases e <;> rfl

/-- The bytes of a file. -/
def bytes? : Entry → Option ByteArray
  | file bytes => some bytes
  | folder _ => none

/-- The places of the files of an entry with the given name. -/
def places (name : String) : Entry → List (List String)
  | file _ => [[name]]
  | folder contents => contents.places.map (name :: ·)

end Entry

namespace Folder

open CustomFunctions.Path (IsName)

-- ════════════════════════════════════════════════════════════════════════
-- One entry after the other
-- ════════════════════════════════════════════════════════════════════════

/-- Every folder is empty or has a first entry. -/
@[elab_as_elim] theorem entryInduction {motive : Folder → Prop} (f : Folder) (empty : motive empty)
    (before : ∀ name entry others, motive others → motive (Entry.before name entry others)) :
    motive f := by
  induction f with
  | empty => exact empty
  | file name bytes others ih => exact before name (.file bytes) others ih
  | folder name contents others _ ih => exact before name (.folder contents) others ih

section

variable (name other : String) (entry e : Entry) (others : Folder)

theorem names_before : (entry.before name others).names = name :: others.names := by
  cases entry <;> rfl

theorem places_before :
    (entry.before name others).places = entry.places name ++ others.places := by
  cases entry <;> rfl

theorem find?_before :
    (entry.before name others).find? other =
      if name = other then some entry else others.find? other := by
  cases entry <;> rfl

theorem isSound_before :
    (entry.before name others).IsSound ↔
      IsName name.toList ∧ (∀ n ∈ others.names, name < n) ∧ entry.IsSound ∧ others.IsSound := by
  cases entry <;> simp [Entry.before, IsSound, Entry.IsSound]

theorem set_before :
    (e.before other others).set name entry =
      if name < other then entry.before name (e.before other others)
      else if name = other then entry.before name others
      else e.before other (others.set name entry) := by
  cases e <;> rfl

end

theorem find?_eq_none {name : String} {f : Folder} (h : name ∉ f.names) : f.find? name = none := by
  induction f using entryInduction with
  | empty => rfl
  | before other e others ih =>
    rw [names_before, List.mem_cons, not_or] at h
    rw [find?_before, if_neg (Ne.symm h.1), ih h.2]

/-- A name before the first one is not there. -/
theorem find?_of_lt {name other : String} {e : Entry} {others : Folder}
    (h : (e.before other others).IsSound) (hlt : name < other) :
    (e.before other others).find? name = none := by
  obtain ⟨_, hfirst, _, _⟩ := (isSound_before ..).mp h
  refine find?_eq_none ?_
  rw [names_before, List.mem_cons, not_or]
  refine ⟨String.ne_of_lt hlt, fun hmem => ?_⟩
  exact String.lt_asymm hlt (hfirst name hmem)

/-- What is found in a sound folder is sound and has a proper name. -/
theorem IsSound.of_find? {f : Folder} (h : f.IsSound) {name : String} {e : Entry}
    (hfind : f.find? name = some e) : IsName name.toList ∧ e.IsSound := by
  induction f using entryInduction with
  | empty => cases hfind
  | before other first others ih =>
    obtain ⟨hname, _, hentry, hothers⟩ := (isSound_before ..).mp h
    rw [find?_before] at hfind
    split at hfind
    · next heq =>
      rw [← heq, ← Option.some.inj hfind]
      exact ⟨hname, hentry⟩
    · exact ih hothers hfind

-- ════════════════════════════════════════════════════════════════════════
-- Setting and removing an entry
-- ════════════════════════════════════════════════════════════════════════

/-- The folder without the entry of the given name. -/
def erase (name : String) : Folder → Folder
  | empty => empty
  | file other bytes others =>
    if other = name then others else file other bytes (others.erase name)
  | folder other contents others =>
    if other = name then others else folder other contents (others.erase name)

theorem erase_before (name other : String) (e : Entry) (others : Folder) :
    (e.before other others).erase name =
      if other = name then others else e.before other (others.erase name) := by
  cases e <;> rfl

theorem find?_set (name other : String) (entry : Entry) (f : Folder) :
    (f.set name entry).find? other = if name = other then some entry else f.find? other := by
  induction f using entryInduction with
  | empty => exact find?_before ..
  | before first e others ih =>
    rw [set_before]
    split
    · rw [find?_before]
    · split
      · next heq =>
        rw [find?_before, find?_before, heq]
        split <;> rfl
      · next hne =>
        rw [find?_before, find?_before, ih]
        by_cases hfirst : first = other
        · rw [if_pos hfirst, if_pos hfirst, if_neg (by rwa [← hfirst])]
        · rw [if_neg hfirst, if_neg hfirst]

theorem find?_erase {f : Folder} (h : f.IsSound) (name other : String) :
    (f.erase name).find? other = if name = other then none else f.find? other := by
  induction f using entryInduction with
  | empty => simp [erase, find?]
  | before first e others ih =>
    obtain ⟨_, hfirst, _, hothers⟩ := (isSound_before ..).mp h
    rw [erase_before, find?_before]
    split
    · next heq =>
      subst heq
      split
      · next heq =>
        subst heq
        exact find?_eq_none fun hmem => String.lt_irrefl _ (hfirst _ hmem)
      · rfl
    · next hne =>
      rw [find?_before, ih hothers]
      by_cases hfirst : first = other
      · rw [if_pos hfirst, if_pos hfirst, if_neg (by rw [← hfirst]; exact Ne.symm hne)]
      · rw [if_neg hfirst, if_neg hfirst]

theorem mem_names_set {name n : String} {entry : Entry} {f : Folder}
    (h : n ∈ (f.set name entry).names) : n = name ∨ n ∈ f.names := by
  induction f using entryInduction with
  | empty =>
    rw [set, names_before] at h
    exact List.mem_cons.mp h
  | before other e others ih =>
    rw [set_before] at h
    rw [names_before]
    split at h
    · rwa [names_before, names_before, List.mem_cons] at h
    · split at h
      · rw [names_before, List.mem_cons] at h
        exact h.imp_right (List.mem_cons_of_mem _)
      · rw [names_before, List.mem_cons] at h
        rcases h with rfl | h
        · exact .inr List.mem_cons_self
        · exact (ih h).imp_right (List.mem_cons_of_mem _)

theorem mem_names_erase {name n : String} {f : Folder} (h : n ∈ (f.erase name).names) :
    n ∈ f.names := by
  induction f using entryInduction with
  | empty => exact h
  | before other e others ih =>
    rw [erase_before] at h
    rw [names_before]
    split at h
    · exact List.mem_cons_of_mem _ h
    · rw [names_before] at h
      exact List.mem_cons.mpr ((List.mem_cons.mp h).imp_right ih)

theorem IsSound.set {f : Folder} (h : f.IsSound) {name : String} (hname : IsName name.toList)
    {entry : Entry} (hentry : entry.IsSound) : (f.set name entry).IsSound := by
  induction f using entryInduction with
  | empty => exact (isSound_before ..).mpr ⟨hname, nofun, hentry, trivial⟩
  | before other e others ih =>
    have hsound := (isSound_before ..).mp h
    obtain ⟨hother, hfirst, he, hothers⟩ := hsound
    rw [set_before]
    split
    · next hlt =>
      refine (isSound_before ..).mpr ⟨hname, ?_, hentry, h⟩
      rw [names_before, List.forall_mem_cons]
      exact ⟨hlt, fun n hn => String.lt_trans hlt (hfirst n hn)⟩
    · next hle =>
      split
      · next heq => exact (isSound_before ..).mpr ⟨hname, heq ▸ hfirst, hentry, hothers⟩
      · next hne =>
        refine (isSound_before ..).mpr ⟨hother, fun n hn => ?_, he, ih hothers⟩
        rcases mem_names_set hn with rfl | hn
        · exact Std.lt_of_le_of_ne (String.not_lt.mp hle) (Ne.symm hne)
        · exact hfirst n hn

theorem IsSound.erase {f : Folder} (h : f.IsSound) (name : String) : (f.erase name).IsSound := by
  induction f using entryInduction with
  | empty => exact h
  | before other e others ih =>
    obtain ⟨hother, hfirst, he, hothers⟩ := (isSound_before ..).mp h
    rw [erase_before]
    split
    · exact hothers
    · exact (isSound_before ..).mpr
        ⟨hother, fun n hn => hfirst n (mem_names_erase hn), he, ih hothers⟩

/-- Setting what is there already changes nothing. -/
theorem set_self {f : Folder} (h : f.IsSound) {name : String} {entry : Entry}
    (hfind : f.find? name = some entry) : f.set name entry = f := by
  induction f using entryInduction with
  | empty => cases hfind
  | before other e others ih =>
    rw [set_before]
    split
    · next hlt =>
      rw [find?_of_lt h hlt] at hfind
      cases hfind
    · rw [find?_before] at hfind
      split
      · next heq =>
        rw [if_pos heq.symm] at hfind
        rw [heq, Option.some.inj hfind]
      · next hne =>
        rw [if_neg (Ne.symm hne)] at hfind
        rw [ih ((isSound_before ..).mp h).2.2.2 hfind]

section

variable {keep : List String → Bool}

/-- The places that count stay in order if the new entry has the same ones as the old one. -/
theorem filter_places_set {f : Folder} (h : f.IsSound) {name : String} {entry : Entry}
    (hentry : (entry.places name).filter keep =
      ((f.find? name).elim [] (Entry.places name)).filter keep) :
    (f.set name entry).places.filter keep = f.places.filter keep := by
  induction f using entryInduction with
  | empty =>
    rw [set, places_before, List.filter_append, hentry]
    rfl
  | before other e others ih =>
    have hothers := ((isSound_before ..).mp h).2.2.2
    rw [set_before]
    split
    · next hlt =>
      rw [find?_of_lt h hlt] at hentry
      rw [places_before, List.filter_append, hentry]
      rfl
    · rw [find?_before] at hentry
      split
      · next heq =>
        rw [if_pos heq.symm] at hentry
        rw [places_before, places_before, List.filter_append, List.filter_append, hentry, ← heq]
        rfl
      · next hne =>
        rw [if_neg (Ne.symm hne)] at hentry
        rw [places_before, places_before, List.filter_append, List.filter_append, ih hothers hentry]

/-- The places that count stay in order if the erased entry has none of them. -/
theorem filter_places_erase {f : Folder} {name : String}
    (hentry : ((f.find? name).elim [] (Entry.places name)).filter keep = []) :
    (f.erase name).places.filter keep = f.places.filter keep := by
  induction f using entryInduction with
  | empty => rfl
  | before other e others ih =>
    rw [find?_before] at hentry
    rw [erase_before]
    split
    · next heq =>
      rw [if_pos heq, Option.elim_some, ← heq] at hentry
      rw [places_before, List.filter_append, hentry, List.nil_append]
    · next hne =>
      rw [if_neg hne] at hentry
      rw [places_before, places_before, List.filter_append, List.filter_append, ih hentry]

end

-- ════════════════════════════════════════════════════════════════════════
-- Places
-- ════════════════════════════════════════════════════════════════════════

theorem findAt?_cons (name : String) (names : List String) (f : Folder) :
    f.findAt? (name :: names) = (f.find? name).bind (Entry.findAt? names) := by
  cases names with
  | nil => cases hfind : f.find? name <;> simp [findAt?, hfind]
  | cons next rest =>
    rw [findAt?]
    · cases hfind : f.find? name with
      | none => rfl
      | some e => cases e <;> rfl
    · nofun

theorem findAt?_append (names rest : List String) (f : Folder) :
    f.findAt? (names ++ rest) = (f.findAt? names).bind (Entry.findAt? rest) := by
  induction names generalizing f with
  | nil => rfl
  | cons name names ih =>
    rw [List.cons_append, findAt?_cons, findAt?_cons, Option.bind_assoc]
    congr 1
    funext e
    cases e with
    | folder contents => exact ih contents
    | file bytes =>
      by_cases hnames : names = []
      · simp [hnames, Entry.findAt?]
      · simp [hnames, Entry.findAt?]

/-- What stands at a place in a sound folder is sound. -/
theorem IsSound.of_findAt? {f : Folder} (h : f.IsSound) {names : List String} {e : Entry}
    (hfind : f.findAt? names = some e) : (∀ name ∈ names, IsName name.toList) ∧ e.IsSound := by
  induction names generalizing f with
  | nil =>
    rw [findAt?] at hfind
    rw [← Option.some.inj hfind]
    exact ⟨nofun, h⟩
  | cons name names ih =>
    rw [findAt?_cons] at hfind
    obtain ⟨first, hfirst, hrest⟩ := Option.bind_eq_some_iff.mp hfind
    obtain ⟨hname, hsound⟩ := h.of_find? hfirst
    cases first with
    | folder contents =>
      obtain ⟨hnames, he⟩ := ih hsound hrest
      exact ⟨List.forall_mem_cons.mpr ⟨hname, hnames⟩, he⟩
    | file bytes =>
      rw [Entry.findAt?] at hrest
      split at hrest
      · next hnil =>
        subst hnil
        rw [← Option.some.inj hrest]
        exact ⟨List.forall_mem_cons.mpr ⟨hname, nofun⟩, trivial⟩
      · cases hrest

/-- The file at the end of a path of names. -/
def fileAt? (f : Folder) (names : List String) : Option ByteArray :=
  (f.findAt? names).bind Entry.bytes?

theorem fileAt?_cons (f : Folder) (name : String) (names : List String) :
    f.fileAt? (name :: names) =
      (f.find? name).bind fun e => (e.findAt? names).bind Entry.bytes? := by
  rw [fileAt?, findAt?_cons, Option.bind_assoc]

/-- A walk comes to every file. -/
theorem mem_places {f : Folder} {names : List String} {bytes : ByteArray}
    (h : f.findAt? names = some (.file bytes)) : names ∈ f.places := by
  induction f generalizing names with
  | empty =>
    cases names with
    | nil => cases h
    | cons name names =>
      rw [findAt?_cons] at h
      cases h
  | file other content others ih =>
    cases names with
    | nil => cases h
    | cons name names =>
      rw [findAt?_cons, find?] at h
      split at h
      · next heq =>
        subst heq
        rw [Option.bind_some, Entry.findAt?] at h
        split at h
        · next hnil =>
          subst hnil
          exact List.mem_cons_self
        · cases h
      · exact List.mem_cons_of_mem _ (ih (by rwa [findAt?_cons]))
  | folder other contents others ihContents ihOthers =>
    cases names with
    | nil => cases h
    | cons name names =>
      rw [findAt?_cons, find?] at h
      rw [places, List.mem_append]
      split at h
      · next heq =>
        subst heq
        exact .inl (List.mem_map_of_mem (ihContents h))
      · exact .inr (ihOthers (by rwa [findAt?_cons]))

/-- A file behind the first entry is found. -/
theorem findAt?_before {name : String} (entry : Entry) {others : Folder}
    (h : (entry.before name others).IsSound) {names : List String} {bytes : ByteArray}
    (hfind : others.findAt? names = some (.file bytes)) :
    (entry.before name others).findAt? names = some (.file bytes) := by
  obtain ⟨_, hfirst, _, _⟩ := (isSound_before ..).mp h
  cases names with
  | nil => cases hfind
  | cons other rest =>
    rw [findAt?_cons] at hfind ⊢
    obtain ⟨found, hfound, _⟩ := Option.bind_eq_some_iff.mp hfind
    have hmem : other ∈ others.names := by
      by_contra hmem
      rw [find?_eq_none hmem] at hfound
      cases hfound
    rwa [find?_before, if_neg (String.ne_of_lt (hfirst other hmem))]

/-- A walk comes to files only. -/
theorem findAt?_of_mem_places {f : Folder} (hf : f.IsSound) {names : List String}
    (h : names ∈ f.places) : ∃ bytes, f.findAt? names = some (.file bytes) := by
  induction f generalizing names with
  | empty => cases h
  | file name content others ih =>
    rcases List.mem_cons.mp h with rfl | h
    · refine ⟨content, ?_⟩
      rw [findAt?_cons, find?, if_pos rfl]
      rfl
    · obtain ⟨bytes, hfind⟩ := ih hf.2.2 h
      exact ⟨bytes, findAt?_before (.file content) hf hfind⟩
  | folder name contents others ihContents ihOthers =>
    rcases List.mem_append.mp h with h | h
    · obtain ⟨rest, hrest, rfl⟩ := List.mem_map.mp h
      obtain ⟨bytes, hfind⟩ := ihContents hf.2.2.1 hrest
      refine ⟨bytes, ?_⟩
      rw [findAt?_cons, find?, if_pos rfl]
      exact hfind
    · obtain ⟨bytes, hfind⟩ := ihOthers hf.2.2.2 h
      exact ⟨bytes, findAt?_before (.folder contents) hf hfind⟩

end Folder

-- ════════════════════════════════════════════════════════════════════════
-- Texts of files
-- ════════════════════════════════════════════════════════════════════════

theorem Workspace.text_eq {w : Workspace} {path : String} {bytes : ByteArray}
    (h : w.entry path = .ok (.file bytes)) :
    w.text path = (String.fromUTF8? bytes).elim (.error .notText) .ok := by
  rw [text, h]
  simp only [bind, Except.bind]
  cases String.fromUTF8? bytes <;> rfl

end CustomFunctions
