import CustomFunctions.Proofs.Files.Folder
import CustomFunctions.Proofs.Text.Basic

/-!
# Components of paths

What a path that leads to a file ends with, and the components of the path of a file in a folder.

## Main definitions

- `Path.components_concat` — a path that leads to a file ends with a name
- `Path.components_join` — the components of the path of a file in a folder
-/

namespace CustomFunctions.Path

open Text (splitOn splitOn_eq splitOn_ne_nil)

theorem not_mem_of_mem_splitOn {sep : Char} {s piece : List Char} (h : piece ∈ splitOn sep s) :
    sep ∉ piece := by
  induction s generalizing piece with
  | nil =>
    rw [splitOn, List.mem_singleton] at h
    rw [h]
    exact List.not_mem_nil
  | cons c s ih =>
    rw [splitOn] at h
    split at h
    · rcases List.mem_cons.mp h with rfl | h
      · exact List.not_mem_nil
      · exact ih h
    · next hc =>
      split at h
      · next hnil => exact absurd hnil (splitOn_ne_nil sep s)
      · next first rest hpieces =>
        rw [hpieces] at ih
        rcases List.mem_cons.mp h with rfl | h
        · rw [List.mem_cons, not_or]
          exact ⟨Ne.symm hc, ih List.mem_cons_self⟩
        · exact ih (List.mem_cons_of_mem _ h)

/-- A path that leads to a file ends with a name. -/
theorem components_concat {path : List Char} (h : endsInFolder path = false) :
    ∃ before name, components path = before ++ [name] ∧ IsName name := by
  obtain ⟨before, last, hsplit⟩ : ∃ before last, splitOn '/' path = before ++ [last] :=
    ⟨_, _, (List.dropLast_append_getLast (splitOn_ne_nil '/' path)).symm⟩
  simp only [endsInFolder, hsplit, List.getLast?_concat, Option.getD_some, Bool.or_eq_false_iff,
    decide_eq_false_iff_not] at h
  obtain ⟨⟨hnil, hhere⟩, hup⟩ := h
  have hslash : '/' ∉ last := by
    refine not_mem_of_mem_splitOn (s := path) ?_
    rw [hsplit]
    exact List.mem_append_right _ List.mem_cons_self
  refine ⟨before.filter fun c => c ≠ [] && c ≠ ['.'], last, ?_, hnil, hslash, hhere, hup⟩
  rw [components, hsplit, List.filter_append, List.filter_cons_of_pos (by simp [hnil, hhere]),
    List.filter_nil]

theorem components_append_slash (a b : List Char) :
    components (a ++ '/' :: b) = components a ++ components b := by
  rw [components, splitOn_eq, List.splitOn_append_cons_self, List.filter_append, ← splitOn_eq,
    ← splitOn_eq]
  rfl

theorem splitOn_intercalate {names : List (List Char)} (hnames : ∀ name ∈ names, IsName name)
    (hne : names ≠ []) : splitOn '/' (List.intercalate ['/'] names) = names := by
  rw [splitOn_eq]
  exact List.splitOn_intercalate '/' (fun name hname => (hnames name hname).2.1) hne

theorem components_intercalate {names : List (List Char)} (hnames : ∀ name ∈ names, IsName name)
    (hne : names ≠ []) : components (List.intercalate ['/'] names) = names := by
  rw [components, splitOn_intercalate hnames hne, List.filter_eq_self]
  intro name hname
  obtain ⟨hnil, _, hhere, _⟩ := hnames name hname
  simp [hnil, hhere]

/-- The path of a file in a folder has the components of the folder and those of the file. -/
theorem components_join (folder : List Char) {names : List (List Char)}
    (hnames : ∀ name ∈ names, IsName name) (hne : names ≠ []) :
    components (join folder (List.intercalate ['/'] names)) = components folder ++ names := by
  have hinner := components_intercalate hnames hne
  rw [join]
  split
  · next h =>
    rcases h with rfl | hslash
    · rw [List.nil_append, hinner]
      rfl
    · obtain ⟨before, rfl⟩ := List.getLast?_eq_some_iff.mp hslash
      rw [List.append_assoc, List.singleton_append, components_append_slash,
        components_append_slash, hinner, show components [] = [] from rfl, List.append_nil]
  · rw [components_append_slash, hinner]

/-- What a text ends with behind its last slash is decided by what stands behind any of them. -/
theorem endsInFolder_append_slash (a b : List Char) :
    endsInFolder (a ++ '/' :: b) = endsInFolder b := by
  have hlast : (splitOn '/' (a ++ '/' :: b)).getLast? = (splitOn '/' b).getLast? := by
    rw [splitOn_eq, splitOn_eq, List.splitOn_append_cons_self, List.getLast?_append_of_ne_nil]
    exact List.splitOn_ne_nil '/' b
  rw [endsInFolder, hlast]
  rfl

theorem endsInFolder_join (folder : List Char) {names : List (List Char)}
    (hnames : ∀ name ∈ names, IsName name) (hne : names ≠ []) :
    endsInFolder (join folder (List.intercalate ['/'] names)) = false := by
  have hinner : endsInFolder (List.intercalate ['/'] names) = false := by
    obtain ⟨hnil, _, hhere, hup⟩ := hnames _ (List.getLast_mem hne)
    rw [endsInFolder, splitOn_intercalate hnames hne, List.getLast?_eq_getLast_of_ne_nil hne]
    simp [hnil, hhere, hup]
  rw [join]
  split
  · next h =>
    rcases h with rfl | hslash
    · exact hinner
    · obtain ⟨before, rfl⟩ := List.getLast?_eq_some_iff.mp hslash
      rw [List.append_assoc, List.singleton_append, endsInFolder_append_slash, hinner]
  · rw [endsInFolder_append_slash, hinner]

theorem isAbsolute_join (folder : List Char) {names : List (List Char)}
    (hnames : ∀ name ∈ names, IsName name) (hne : names ≠ []) :
    isAbsolute (join folder (List.intercalate ['/'] names)) = isAbsolute folder := by
  cases folder with
  | cons c folder =>
    rw [join]
    split <;> rfl
  | nil =>
    obtain ⟨name, rest, rfl⟩ := List.exists_cons_of_ne_nil hne
    obtain ⟨hnil, hslash, _, _⟩ := hnames name List.mem_cons_self
    obtain ⟨c, name, rfl⟩ := List.exists_cons_of_ne_nil hnil
    have hc : c ≠ '/' := by
      rintro rfl
      exact hslash List.mem_cons_self
    cases rest with
    | nil => simp [join, isAbsolute, List.intercalate_singleton, hc]
    | cons next rest => simp [join, isAbsolute, List.intercalate_cons_cons, hc]

end CustomFunctions.Path
