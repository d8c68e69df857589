import CustomFunctions.Proofs.Files.Sources

/-!
# The limit on the size of source files

A run skips the files that are larger than the settings name and merges what all others generate. The
limit is a product that is computed in 64 bits. If it does not fit into them, the run breaks off before
it takes or skips a file.

## Main definitions

- `Generation.TakesUpTo` — a run takes the files of a size and skips larger ones
- `Generation.takesUpTo_or_overflows` — when a run takes the files of the size that is named
-/

namespace CustomFunctions

/-- A path as it is shown, with every backslash turned into a slash. -/
def Path.displayed (path : String) : String :=
  path.map fun c => if c = '\\' then '/' else c

/-- Is there a file of at most so many bytes at the path? -/
def Workspace.isWithin (w : Workspace) (limit : Nat) (path : String) : Bool :=
  match w.entry path with
  | .ok (.file bytes) => bytes.size ≤ limit
  | _ => false

theorem Workspace.isWithin_iff {w : Workspace} {limit : Nat} {path : String} :
    w.isWithin limit path = true ↔ ∃ bytes, w.entry path = .ok (.file bytes) ∧ bytes.size ≤ limit := by
  unfold isWithin
  split
  · next bytes hentry => simp [hentry]
  · next hfile => simpa using fun bytes hentry => absurd hentry (hfile bytes)

/-- The entries of two lists that belong together still do once those without a partner are left
out. -/
theorem forall₂_filterMap_id {α β : Type} {p : α → Bool} {R : α → β → Prop} {xs : List α}
    {ys : List (Option β)}
    (h : List.Forall₂ (fun x y? => p x = y?.isSome ∧ ∀ y ∈ y?, R x y) xs ys) :
    List.Forall₂ R (xs.filter p) (ys.filterMap id) := by
  induction h with
  | nil => exact .nil
  | @cons x y? xs ys hxy _ ih =>
    cases y? with
    | none => rwa [List.filter_cons_of_neg (by simp [hxy.1]), List.filterMap_cons_none rfl]
    | some y =>
      rw [List.filter_cons_of_pos (by simp [hxy.1]), List.filterMap_cons_some (f := id) rfl]
      exact .cons (hxy.2 y rfl) ih

theorem flatMap_eq_map_of_forall₂ {α β γ : Type} {f : α → γ} {g : β → List γ} {xs : List α}
    {ys : List β} (h : List.Forall₂ (fun x y => g y = [f x]) xs ys) : ys.flatMap g = xs.map f := by
  induction h with
  | nil => rfl
  | cons hxy _ ih => rw [List.flatMap_cons, List.map_cons, hxy, ih, List.singleton_append]

/-- The declarations of a source text belong to its file. -/
theorem SourceUnit.ofText_path {path text : String} {language : Language} {unit : SourceUnit}
    (h : ofText path language text = .ok unit) : unit.path = path := by
  unfold ofText at h
  cases hstatements : Script.statements? language text.toList with
  | error line =>
    rw [hstatements] at h
    cases h
  | ok list =>
    rw [hstatements] at h
    obtain rfl := Except.ok.inj h
    rfl

namespace Generation

variable {w : Workspace} {config : Config} {path text : String}

/-- Of the files that it is given, a run takes those of at most so many bytes and skips the others: it
comes to an end whatever a skipped file holds, and what it generates is what the taken ones generate, in
their order. -/
structure TakesUpTo (limit : Nat) (w : Workspace) (config : Config) : Prop where
  ends : ∀ inputs paths, w.sourcePaths config inputs = .ok paths → paths ≠ [] →
    ((∃ g, ofPaths w config inputs = .ok g) ↔ ∀ path ∈ paths, IsPassed limit w config path)
  takes : ∀ inputs g, ofPaths w config inputs = .ok g →
    ∃ paths parts, w.sourcePaths config inputs = .ok paths ∧
      List.Forall₂ (fun path part => ∃ text, w.text path = .ok text ∧
        ofText config path text = .ok part) (paths.filter (w.isWithin limit)) parts ∧
      g = merge parts ∧
      g.inputs = (paths.filter (w.isWithin limit)).map Path.displayed

theorem ofPath_eq_none_iff {limit : Nat} : ofPath w config limit path = .ok none ↔
    ∃ bytes, w.entry path = .ok (.file bytes) ∧ limit < bytes.size := by
  rw [ofPath]
  split
  · next hentry => simp [hentry]
  · next hentry => simp [hentry]
  · next bytes hentry =>
    split
    · next hsize => simp [hentry, hsize]
    · next hsize =>
      cases w.text path with
      | error fault => simp [hentry, hsize]
      | ok text =>
        cases hgeneration : ofText config path text with
        | error failure => simp [hentry, hsize, hgeneration, Except.map]
        | ok part => simp [hentry, hsize, hgeneration, Except.map]

/-- What is generated from a text comes from its file alone. -/
theorem ofText_inputs {g : Generation} (h : ofText config path text = .ok g) :
    g.inputs = [Path.displayed path] := by
  unfold ofText at h
  cases hlanguage : Language.ofPath? path with
  | none =>
    rw [hlanguage] at h
    cases h
  | some language =>
    cases hunit : SourceUnit.ofText path language text with
    | error line =>
      simp only [hlanguage, hunit] at h
      cases h
    | ok unit =>
      simp only [hlanguage, hunit] at h
      obtain rfl := Except.ok.inj h
      exact congrArg (fun path => [Path.displayed path]) (SourceUnit.ofText_path hunit)

/-- A file is taken if it is within the limit. -/
theorem isWithin_of_ofPath {limit : Nat} {part? : Option Generation}
    (h : ofPath w config limit path = .ok part?) :
    w.isWithin limit path = part?.isSome ∧
      ∀ part ∈ part?, ∃ text, w.text path = .ok text ∧ ofText config path text = .ok part := by
  cases part? with
  | none =>
    obtain ⟨bytes, hentry, hsize⟩ := ofPath_eq_none_iff.mp h
    refine ⟨?_, nofun⟩
    simp [Workspace.isWithin, hentry, hsize]
  | some part =>
    obtain ⟨bytes, text, hentry, hsize, htext, hpart⟩ := ofPath_eq_some_iff.mp h
    refine ⟨Workspace.isWithin_iff.mpr ⟨bytes, hentry, hsize⟩, ?_⟩
    rintro _ ⟨⟩
    exact ⟨text, htext, hpart⟩

/-- The files that are taken are those that are generated. -/
theorem takes_namedFileSize {inputs : List String} {g : Generation}
    (h : ofPaths w config inputs = .ok g) :
    ∃ paths parts, w.sourcePaths config inputs = .ok paths ∧
      List.Forall₂ (fun path part => ∃ text, w.text path = .ok text ∧
        ofText config path text = .ok part)
        (paths.filter (w.isWithin config.namedFileSize)) parts ∧
      g = merge parts ∧
      g.inputs = (paths.filter (w.isWithin config.namedFileSize)).map Path.displayed := by
  obtain ⟨_, paths, hpaths, _, gs, hgs, rfl⟩ := ofPaths_eq_ok.mp h
  have hparts := forall₂_filterMap_id
    ((mapM_eq_ok_iff.mp hgs).imp fun _ _ => isWithin_of_ofPath)
  refine ⟨paths, gs.filterMap id, hpaths, hparts, rfl, ?_⟩
  rw [merge_eq]
  refine flatMap_eq_map_of_forall₂ (hparts.imp ?_)
  rintro path part ⟨text, _, hpart⟩
  exact ofText_inputs hpart

/-- With a limit that fits into 64 bits, a run takes the files up to the size that is named. -/
theorem takesUpTo_namedFileSize (h : config.namedFileSize < UInt64.size) :
    TakesUpTo config.namedFileSize w config where
  ends inputs paths hpaths hne := by
    rw [exists_ofPaths_eq_ok_iff]
    constructor
    · rintro ⟨_, paths', hpaths', _, hall⟩ path hmem
      obtain rfl := Except.ok.inj (hpaths.symm.trans hpaths')
      exact exists_ofPath_eq_ok.mp (hall path hmem)
    · intro hall
      exact ⟨h, paths, hpaths, hne, fun path hmem => exists_ofPath_eq_ok.mpr (hall path hmem)⟩
  takes _ _ hg := takes_namedFileSize hg

/-- With a limit that does not fit, no run comes to an end. This is as it should be if there is no file
that a run could pass. -/
theorem takesUpTo_of_overflow (h : UInt64.size ≤ config.namedFileSize)
    (hfiles : ∀ path, ¬ IsPassed config.namedFileSize w config path) :
    TakesUpTo config.namedFileSize w config where
  ends inputs paths hpaths hne := by
    rw [ofPaths_eq_overflow hpaths hne h]
    refine ⟨nofun, fun hall => ?_⟩
    obtain ⟨path, hmem⟩ := List.exists_mem_of_ne_nil paths hne
    exact absurd (hall path hmem) (hfiles path)
  takes _ _ hg := takes_namedFileSize hg

/-- With such a limit, a file that is passed shows that a run does not do what it is told to. -/
theorem not_takesUpTo_of_overflow (h : UInt64.size ≤ config.namedFileSize)
    (hpassed : IsPassed config.namedFileSize w config path) :
    ¬ TakesUpTo config.namedFileSize w config := by
  intro htakes
  have hpaths : w.sourcePaths config [path] = .ok [path] := sourcePaths_file hpassed.choose_spec.1
  obtain ⟨g, hg⟩ := (htakes.ends [path] [path] hpaths (List.cons_ne_nil _ _)).mpr fun path' hmem =>
    List.mem_singleton.mp hmem ▸ hpassed
  rw [ofPaths_eq_overflow hpaths (List.cons_ne_nil _ _) h] at hg
  cases hg

/-- A run takes the files up to the size that the settings name if this size fits into 64 bits, and
otherwise only if there is no file that a run could pass. Otherwise every run over files breaks off. -/
theorem takesUpTo_or_overflows (w : Workspace) (config : Config) :
    (TakesUpTo config.namedFileSize w config ↔
      config.namedFileSize < UInt64.size ∨
        ∀ path, ¬ IsPassed config.namedFileSize w config path) ∧
    (UInt64.size ≤ config.namedFileSize →
      ∀ inputs paths, w.sourcePaths config inputs = .ok paths → paths ≠ [] →
        ofPaths w config inputs = .error .overflow) := by
  refine ⟨?_, fun hlimit _ _ hpaths hne => ofPaths_eq_overflow hpaths hne hlimit⟩
  rcases Nat.lt_or_ge config.namedFileSize UInt64.size with hfits | hlimit
  · exact ⟨fun _ => .inl hfits, fun _ => takesUpTo_namedFileSize hfits⟩
  · constructor
    · exact fun h => .inr fun path hpassed => not_takesUpTo_of_overflow hlimit hpassed h
    · rintro (hfits | hfiles)
      · exact absurd hlimit (Nat.not_le.mpr hfits)
      · exact takesUpTo_of_overflow hlimit hfiles

/-- The largest limit that fits into 64 bits, and the one above it. -/
theorem takesUpTo_or_overflows_addition :
    let w := folderOf "/** @customfunction */ function add() \x7b\x7d"
    let fits : Config := { limits := { maxFileSizeMb := 17592186044415 } }
    let overflows : Config := { limits := { maxFileSizeMb := 17592186044416 } }
    TakesUpTo fits.namedFileSize w fits ∧ ofPaths w overflows ["add.ts"] = .error .overflow := by
  intro w fits overflows
  have hfits : fits.namedFileSize < UInt64.size := by decide +kernel
  have hoverflow : UInt64.size ≤ overflows.namedFileSize := by decide +kernel
  exact ⟨(takesUpTo_or_overflows w fits).1.mpr (.inl hfits),
    (takesUpTo_or_overflows w overflows).2 hoverflow _ _ (sourcePaths_file rfl)
      (List.cons_ne_nil _ _)⟩

/-- There are settings under which no run takes a file, although they name a limit that is large. -/
theorem not_forall_takesUpTo :
    ¬ ∀ (settings : String) (config : Config) (w : Workspace), Config.read? settings = some config →
      TakesUpTo config.namedFileSize w config := by
  intro h
  let config : Config := { limits := { maxFileSizeMb := 17592186044416 } }
  have hread : Config.read? "\x7b\"limits\": \x7b\"maxFileSizeMb\": 17592186044416\x7d\x7d" =
      some config := by decide +kernel
  let text := "/** @customfunction */ function add() \x7b\x7d"
  have hgenerated : (ofText config "add.ts" text).isOk = true := by decide +kernel
  have hpassed : IsPassed config.namedFileSize (folderOf text) config "add.ts" := by
    refine ⟨text.toUTF8, rfl, fun _ => ⟨text, by decide +kernel, ?_⟩⟩
    cases hpart : ofText config "add.ts" text with
    | error failure => rw [hpart] at hgenerated; cases hgenerated
    | ok g => exact ⟨g, rfl⟩
  exact not_takesUpTo_of_overflow (by decide +kernel) hpassed (h _ config (folderOf text) hread)

end Generation

end CustomFunctions
