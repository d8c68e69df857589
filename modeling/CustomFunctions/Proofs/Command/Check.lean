import CustomFunctions.Proofs.Command.Generate
import CustomFunctions.Proofs.Files.Listing

/-!
# Runs of the check command

Writing a document changes neither the settings nor the source files, so a later run generates the
same document again and finds it in the file. If the file has another text or is gone, it does not.

## Main definitions

- `Config.IsKept` — a later run has the same settings
- `Outcome.check_ending` — a check fails exactly if the file has another text
- `Request.run_check_accepts_written` — a check accepts what has been written and nothing else
-/

namespace CustomFunctions

/-- A later run has the same settings: they are not kept at the path, and no folder has come in their
place, or what is found now is the same. -/
def Config.IsKept (config : Config) (w w' : Workspace) (configPath path : String) : Prop :=
  (∃ place, w.place? configPath = some place ∧ w'.place? path ≠ some place ∧
    ∀ contents, w'.root.findAt? place ≠ some (.folder contents)) ∨
  Config.load w' configPath = .ok config

/-- Settings that are kept elsewhere are read again. -/
theorem Config.IsKept.load {config : Config} {w w' : Workspace} {configPath path : String}
    {place : List String} (h : config.IsKept w w' configPath path) (hw : w.IsSound)
    (hkeeps : w.Keeps (fun names => names ≠ place) w') (hplace : w'.place? path = some place)
    (hconfig : Config.load w configPath = .ok config) : Config.load w' configPath = .ok config := by
  obtain ⟨other, hother, hne, hfolder⟩ | hload := h
  · have hkeep : decide (other ≠ place) = true := by
      refine decide_eq_true ?_
      rintro rfl
      exact hne hplace
    have hentry := Workspace.entry_of_place hw hother
    cases hfind : w.root.findAt? other with
    | none =>
      -- there was no file, and now there is neither a file nor a folder
      have hentry' := Workspace.entry_of_place hkeeps.sound (hkeeps.place? hw hother)
      rw [hkeeps.findAt?_eq_none hkeep hfind hfolder] at hentry'
      rw [hfind] at hentry
      rw [Config.load, hentry] at hconfig
      rw [Config.load, hentry']
      exact hconfig
    | some found =>
      rw [hfind] at hentry
      cases found with
      | folder contents =>
        rw [Config.load, Workspace.text, hentry] at hconfig
        cases hconfig
      | file bytes =>
        have hentry' := hkeeps.entry hw hother hkeep hentry
        rw [Config.load, hentry, Workspace.text_eq hentry] at hconfig
        rw [Config.load, hentry', Workspace.text_eq hentry']
        exact hconfig
  · exact hload

namespace Outcome

variable {w : Workspace} {config : Config} {inputs : List String} {path : String} {g : Generation}

/-- A check changes no file. -/
theorem check_workspace : (check w config inputs path).workspace = w := by
  rw [check]
  cases Generation.ofPaths w config inputs with
  | error failure =>
    obtain ⟨o', ho', hworkspace⟩ := exists_attempt_error (α := Generation) { workspace := w } failure
    simp only [ho', bind, Except.bind, ofCourse, hworkspace]
  | ok g =>
    simp only [attempt, bind, Except.bind]
    cases existingText w path with
    | error fault => simp [attemptFile, ofCourse]
    | ok current =>
      simp only [attemptFile]
      cases Diff.render current g.document.fileText with
      | none => simp [ofCourse, pure, Except.pure]
      | some diff => simp [ofCourse, throw, throwThe, MonadExceptOf.throw]

/-- A check fails exactly if the file has another text. -/
theorem check_ending (hg : Generation.ofPaths w config inputs = .ok g) {current : String}
    (hcurrent : existingText w path = .ok current) :
    (check w config inputs path).ending =
      if current = g.document.fileText then .success else .failure := by
  simp only [check, hg, attempt, bind, Except.bind, hcurrent, attemptFile, Diff.render]
  by_cases h : current = g.document.fileText
  · simp [h, ofCourse, pure, Except.pure]
  · simp [h, ofCourse, throw, throwThe, MonadExceptOf.throw]

theorem existingText_of_text {text : String} (h : w.text path = .ok text) :
    existingText w path = .ok text := by
  rw [existingText, h]

/-- A file that is gone counts as empty. -/
theorem existingText_of_gone (hw : w.IsSound) {place : List String}
    (hplace : w.place? path = some place) (hgone : w.root.findAt? place = none) :
    existingText w path = .ok "" := by
  have hentry : w.entry path = .error .notFound := by
    rw [Workspace.entry_of_place hw hplace, hgone]
  rw [existingText, Workspace.text, hentry]
  rfl

end Outcome

theorem Document.fileText_ne_empty (d : Document) : d.fileText ≠ "" := by
  intro h
  have hlength := congrArg (fun s : String => s.toList.length) h
  simp [fileText] at hlength

namespace Request

variable {w : Workspace} {config : Config} {inputs : List String} {path : String}

theorem run_eq_check {config? : Option String}
    (h : Config.load w (config?.getD Config.fileName) = .ok config) :
    Request.run w ⟨config?, .check inputs path⟩ = Outcome.check w config inputs path := by
  rw [run]
  simp only [h]

/-- A run of the check command changes no file. -/
theorem run_check_workspace (w : Workspace) (config? : Option String) (inputs : List String)
    (path : String) : (Request.run w ⟨config?, .check inputs path⟩).workspace = w := by
  cases hconfig : Config.load w (config?.getD Config.fileName) with
  | error failure =>
    rw [run]
    simp only [hconfig]
    rfl
  | ok config =>
    rw [run_eq_check hconfig]
    exact Outcome.check_workspace

/-- When a document has been written to a file that is not one of the sources, a check accepts it. When
the file has another text, or is gone, a check does not. No check changes a file. -/
theorem run_check_accepts_written (w : Workspace) (hw : w.IsSound) (config? : Option String)
    (config : Config) (inputs : List String) (path : String) (g : Generation) (w' : Workspace)
    (hconfig : Config.load w (config?.getD Config.fileName) = .ok config)
    (hcode : config.output.code = none) (hready : Outcome.IsReady w config inputs g)
    (hsave : w.save path g.document.fileText = .ok w')
    (hsources : ∀ source, w'.IsSource config inputs source → w'.place? source ≠ w'.place? path) :
    let configPath := config?.getD Config.fileName
    let checked := fun v => Request.run v ⟨config?, .check inputs path⟩
    (Request.run w ⟨config?, .generate inputs (some path) none⟩).workspace = w' ∧
    (config.IsKept w w' configPath path → (checked w').ending = .success) ∧
    (∀ text v, text ≠ g.document.fileText → w'.write path text = .ok v →
      config.IsKept w v configPath path → (checked v).ending = .failure) ∧
    (∀ v, w'.remove path = .ok v →
      config.IsKept w v configPath path → (checked v).ending = .failure) ∧
    ∀ v, (checked v).workspace = v := by
  intro configPath checked
  obtain ⟨place, hplace, hfound, hkeeps⟩ := Workspace.save_saves hw hsave
  have hspares' : w'.Spares config inputs place := by
    refine Workspace.spares_of_sources hkeeps.sound hfound fun source hsource => ?_
    rw [← hplace]
    exact hsources source hsource
  have hspares := hspares'.of_keeps hw hkeeps
  have hgenerated := Generation.ofPaths_of_keeps hw hkeeps hspares hready.generated
  -- a workspace in which only the file at the path has changed
  have hchecked : ∀ v current, w'.Keeps (fun names => names ≠ place) v → v.place? path = some place →
      config.IsKept w v configPath path → Outcome.existingText v path = .ok current →
        (checked v).ending = if current = g.document.fileText then .success else .failure := by
    intro v current hv hvplace hkept hcurrent
    have hload := hkept.load hw (hkeeps.trans hv) hvplace hconfig
    rw [show checked v = _ from run_eq_check hload]
    exact Outcome.check_ending
      (Generation.ofPaths_of_keeps hkeeps.sound hv hspares' hgenerated) hcurrent
  refine ⟨?_, fun hkept => ?_, fun text v hne hwrite hkept => ?_, fun v hremove hkept => ?_,
    fun v => run_check_workspace v config? inputs path⟩
  · have houtputs : w.saveOutputs g ((some path).getD config.output.metadata)
        ((none : Option String).or config.output.code) = .ok w' := by
      rw [hcode]
      exact bind_eq_ok.mpr ⟨w', hsave, rfl⟩
    rw [run_eq_generate hconfig]
    exact (Outcome.generate_of_isReady hready houtputs).1
  · have hsaved : w.Saves path g.document.fileText place w' := ⟨hplace, hfound, hkeeps⟩
    rw [hchecked w' _ (.refl hkeeps.sound) hplace hkept
      (Outcome.existingText_of_text hsaved.text)]
    simp
  · obtain ⟨other, hsaved⟩ := Workspace.write_saves hkeeps.sound hwrite
    obtain rfl : place = other :=
      Option.some.inj ((hsaved.keeps.place? hkeeps.sound hplace).symm.trans hsaved.leads)
    rw [hchecked v text hsaved.keeps hsaved.leads hkept (Outcome.existingText_of_text hsaved.text)]
    exact if_neg hne
  · obtain ⟨other, hleads, hgone, hremoved⟩ := Workspace.remove_removes hkeeps.sound hremove
    obtain rfl : place = other :=
      Option.some.inj ((hremoved.place? hkeeps.sound hplace).symm.trans hleads)
    rw [hchecked v "" hremoved hleads hkept
      (Outcome.existingText_of_gone hremoved.sound hleads hgone)]
    exact if_neg (Ne.symm (Document.fileText_ne_empty _))

/-- The document of an addition is accepted, and an empty file is not. -/
theorem run_check_accepts_addition :
    ∃ g w', Outcome.IsReady additionFolder {} ["a.ts"] g ∧
      additionFolder.save "functions.json" g.document.fileText = .ok w' ∧
      (∀ source, w'.IsSource {} ["a.ts"] source → w'.place? source ≠ w'.place? "functions.json") ∧
      (Request.run w' ⟨none, .check ["a.ts"] "functions.json"⟩).ending = .success ∧
      ∃ v, w'.write "functions.json" "" = .ok v ∧
        (Request.run v ⟨none, .check ["a.ts"] "functions.json"⟩).ending = .failure := by
  obtain ⟨g, hready, _⟩ := exists_isReady_additionFolder
  obtain ⟨w', hsave, hplace, hsource, hpaths, hsettings, v, hwrite, hvplace, hvsettings⟩ : ∃ w',
      additionFolder.save "functions.json" g.document.fileText = .ok w' ∧
      w'.place? "functions.json" = some ["functions.json"] ∧ w'.place? "a.ts" = some ["a.ts"] ∧
      w'.inputPaths {} "a.ts" = .ok ["a.ts"] ∧
      w'.root.findAt? [Config.fileName] = some (.file "{}".toUTF8) ∧
      ∃ v, w'.write "functions.json" "" = .ok v ∧
        v.place? "functions.json" = some ["functions.json"] ∧
        v.root.findAt? [Config.fileName] = some (.file "{}".toUTF8) :=
    ⟨_, rfl, rfl, rfl, rfl, rfl, _, rfl, rfl, rfl⟩
  have hconfigPlace : additionFolder.place? Config.fileName = some [Config.fileName] := rfl
  have hne : some ["functions.json"] ≠ some [Config.fileName] := by decide
  have hsources : ∀ source, w'.IsSource {} ["a.ts"] source →
      w'.place? source ≠ w'.place? "functions.json" := by
    rintro source ⟨input, hinput, paths, hsourcePaths, hmem⟩
    obtain rfl := List.mem_singleton.mp hinput
    obtain rfl := Except.ok.inj (hpaths.symm.trans hsourcePaths)
    obtain rfl := List.mem_singleton.mp hmem
    rw [hsource, hplace]
    decide
  obtain ⟨_, haccepted, hrefused, _⟩ :=
    run_check_accepts_written additionFolder additionFolder_isSound none {} ["a.ts"] "functions.json" g
      w' load_additionFolder rfl hready hsave hsources
  refine ⟨g, w', hready, hsave, hsources, haccepted (.inl ⟨_, hconfigPlace, ?_, ?_⟩), v, hwrite,
    hrefused "" v (Ne.symm (Document.fileText_ne_empty _)) hwrite (.inl ⟨_, hconfigPlace, ?_, ?_⟩)⟩
  · rwa [hplace]
  · rw [hsettings]
    nofun
  · rwa [hvplace]
  · rw [hvsettings]
    nofun

end Request

end CustomFunctions
