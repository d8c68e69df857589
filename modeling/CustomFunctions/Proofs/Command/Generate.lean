import CustomFunctions.Command.Run
import CustomFunctions.Proofs.Command.Outcome
import CustomFunctions.Proofs.Document.Attempts
import CustomFunctions.Proofs.Files.Saving
import CustomFunctions.Proofs.Files.Sources

/-!
# Runs of the generate command

A run of the generate command writes everything or nothing. If something stands in its way, it stops
before it writes and fails. Otherwise it saves the document and, if it is asked for, the registration
code, changes no other file, and fails only because of what its diagnostics say. A run whose limit on the
size of files does not fit into 64 bits breaks off, with nothing written.

## Main definitions

- `Workspace.saveOutputs` — what a run saves
- `Outcome.IsReady` — nothing keeps a run from writing
- `Outcome.HasStopped`, `Outcome.HasCrashed`, `Outcome.HasWritten` — what a run leaves behind
- `Request.GenerateObstacle` — what keeps a run from writing
- `Request.GenerateOverflow` — when a run breaks off
- `Request.run_generate_writes_all_or_nothing` — a run writes unless there is an obstacle
-/

namespace CustomFunctions

namespace Workspace

/-- The workspace in which the registration code has been saved, if there is a path for it. -/
def saveCode (w : Workspace) (g : Generation) : Option String → Except FileFault Workspace
  | none => .ok w
  | some path => w.save path g.registrationCode

/-- The workspace in which the document has been saved, and then the registration code. -/
def saveOutputs (w : Workspace) (g : Generation) (out : String) (code? : Option String) :
    Except FileFault Workspace := do
  (← w.save out g.document.fileText).saveCode g code?

end Workspace

/-- The registration code has a call for each function. -/
theorem Generation.registrationCode_eq {g : Generation} (h : g.IsParallel) :
    g.registrationCode = String.join
      (List.zipWith (fun f a => (Association.mk f.id a.functionName).call ++ "\n")
        g.document.functions g.associations) := by
  have hids : List.zipWith (fun f a => (Association.mk f.id a.functionName).call ++ "\n")
        g.document.functions g.associations =
      List.zipWith (fun id a => (Association.mk id a.functionName).call ++ "\n")
        (g.document.functions.map (·.id)) g.associations := by
    rw [List.zipWith_map_left]
  rw [registrationCode, hids, ← h, List.zipWith_map_left, List.zipWith_self]

/-- Nothing overflows while a document is checked. -/
theorem Document.check_ne_overflow (d : Document) : d.check ≠ .error .overflow := by
  rw [check, Schema.check]
  split <;> nofun

namespace Outcome

variable {w w' : Workspace} {config : Config} {inputs : List String} {output code : Option String}
  {g : Generation}

/-- Nothing keeps the command from writing what is generated. -/
structure IsReady (w : Workspace) (config : Config) (inputs : List String) (g : Generation) : Prop where
  generated : Generation.ofPaths w config inputs = .ok g
  errors : g.errorCount ≤ config.errorHandling.maxErrors.toNat
  valid : config.validateOutput = true → g.document.check = .ok ()

/-- The command has failed and has changed no file. -/
structure HasStopped (o : Outcome) (w : Workspace) : Prop where
  ending : o.ending = .failure
  workspace : o.workspace = w

/-- The command has broken off and has changed no file. -/
structure HasCrashed (o : Outcome) (w : Workspace) : Prop where
  ending : o.ending = .crash
  workspace : o.workspace = w

theorem hasCrashed_of_overflows (h : Generation.Overflows w config inputs) :
    (generate w config inputs output code).HasCrashed w := by
  rw [generate, h.ofPaths_eq]
  exact ⟨rfl, rfl⟩

/-- A run that is kept from writing stops, unless it breaks off. -/
theorem hasStopped_of_not_isReady (hfits : ¬ Generation.Overflows w config inputs)
    (h : ∀ g, ¬ IsReady w config inputs g) :
    (generate w config inputs output code).HasStopped w := by
  cases hg : Generation.ofPaths w config inputs with
  | error failure =>
    have hfailure : failure ≠ .overflow := by
      rintro rfl
      exact hfits (Generation.ofPaths_eq_overflow_iff.mp hg)
    rw [generate, hg]
    simp only [attempt_error _ hfailure, bind, Except.bind, ofCourse]
    exact ⟨rfl, rfl⟩
  | ok g =>
    simp only [generate, hg, attempt, bind, Except.bind, limitErrors]
    by_cases herrors : config.errorHandling.maxErrors.toNat < g.errorCount
    · simp only [if_pos herrors, ofCourse]
      exact ⟨rfl, by simp⟩
    · have hvalid : ¬ (config.validateOutput = true → g.document.check = .ok ()) :=
        fun hvalid => h g ⟨hg, Nat.not_lt.mp herrors, hvalid⟩
      rw [Classical.not_imp] at hvalid
      cases hcheck : g.document.check with
      | ok _ => exact absurd hcheck hvalid.2
      | error failure =>
        have hfailure : failure ≠ .overflow := by
          rintro rfl
          exact g.document.check_ne_overflow hcheck
        simp only [if_neg herrors, checkDocument, if_pos hvalid.1, hcheck, attempt_error _ hfailure,
          bind, Except.bind, ofCourse]
        exact ⟨rfl, by simp⟩

theorem checkDocument_of_valid (o : Outcome)
    (h : config.validateOutput = true → g.document.check = .ok ()) :
    ∃ o', o.checkDocument config g = .ok o' ∧ o'.workspace = o.workspace ∧ o'.ending = o.ending := by
  rw [checkDocument]
  split
  · next hvalidate =>
    rw [h hvalidate]
    exact ⟨_, rfl, rfl, rfl⟩
  · exact ⟨o, rfl, rfl, rfl⟩

theorem writeDocument_of_save (o : Outcome) {path : String}
    (h : o.workspace.save path g.document.fileText = .ok w') :
    ∃ o', o.writeDocument path g = .ok o' ∧ o'.workspace = w' ∧ o'.ending = o.ending := by
  obtain ⟨w₁, hparent, hwrite⟩ := bind_eq_ok.mp h
  refine ⟨{ o with workspace := w' }.say ("✓ Metadata written to " ++ path), ?_, rfl, rfl⟩
  simp only [writeDocument, prepare, hparent, attemptFile, bind, Except.bind, pure, Except.pure, hwrite]

theorem writeCode_of_save (o : Outcome) {code? : Option String}
    (h : o.workspace.saveCode g code? = .ok w') :
    ∃ o', o.writeCode code? g = .ok o' ∧ o'.workspace = w' ∧ o'.ending = o.ending := by
  cases code? with
  | none => exact ⟨o, rfl, Except.ok.inj h, rfl⟩
  | some path =>
    obtain ⟨w₁, hparent, hwrite⟩ := bind_eq_ok.mp h
    refine ⟨{ o with workspace := w' }.say ("✓ Registration code written to " ++ path), ?_, rfl, rfl⟩
    simp only [writeCode, prepare, hparent, attemptFile, bind, Except.bind, pure, Except.pure, hwrite]

theorem summarize_workspace (o : Outcome) : (o.summarize g).workspace = o.workspace := by
  rw [summarize]
  split <;> rfl

theorem summarize_ending (o : Outcome) : (o.summarize g).ending = o.ending := by
  rw [summarize]
  split <;> rfl

/-- A run that nothing keeps from writing saves what is generated and fails because of its diagnostics
alone. -/
theorem generate_of_isReady (h : IsReady w config inputs g)
    (hsave : w.saveOutputs g (output.getD config.output.metadata) (code.or config.output.code) =
      .ok w') :
    (generate w config inputs output code).workspace = w' ∧
      (generate w config inputs output code).ending =
        if isRejected config g then .failure else .success := by
  obtain ⟨w₁, hdocument, hcode⟩ := bind_eq_ok.mp hsave
  let o := ({ workspace := w : Outcome }.say "→ Generating custom functions metadata...").showDiagnostics
    g.diagnostics
  have hworkspace : o.workspace = w := showDiagnostics_workspace _ _
  obtain ⟨o₁, ho₁, hworkspace₁, hending₁⟩ := checkDocument_of_valid o h.valid
  obtain ⟨o₂, ho₂, hworkspace₂, hending₂⟩ :=
    writeDocument_of_save o₁ (by rwa [hworkspace₁, hworkspace])
  obtain ⟨o₃, ho₃, hworkspace₃, hending₃⟩ := writeCode_of_save o₂ (by rwa [hworkspace₂])
  have hending : (o₃.summarize g).ending = .success := by
    rw [summarize_ending, hending₃, hending₂, hending₁]
    exact showDiagnostics_ending _ _
  have hrun : generate w config inputs output code =
      if isRejected config g then
        (o₃.summarize g).refuse "Some declarations were rejected; see diagnostics above"
      else o₃.summarize g := by
    simp only [generate, h.generated, attempt, bind, Except.bind, limitErrors,
      if_neg (Nat.not_lt.mpr h.errors)]
    rw [ho₁]
    simp only [ho₂, ho₃]
    split <;> rfl
  rw [hrun]
  split
  · exact ⟨(summarize_workspace o₃).trans hworkspace₃, rfl⟩
  · exact ⟨(summarize_workspace o₃).trans hworkspace₃, hending⟩

-- ════════════════════════════════════════════════════════════════════════
-- What is written
-- ════════════════════════════════════════════════════════════════════════

/-- What a run that has written its files leaves behind. -/
structure HasWritten (w : Workspace) (config : Config) (g : Generation) (out : String)
    (code? : Option String) (o : Outcome) : Prop where
  document : o.workspace.text out = .ok (g.document.toJson.pretty ++ "\n")
  /-- One function after the other is associated with its code. -/
  code : g.associations.length = g.document.functions.length ∧
    ∀ path ∈ code?, o.workspace.text path = .ok (String.join
      (List.zipWith (fun f a => (Association.mk f.id a.functionName).call ++ "\n")
        g.document.functions g.associations))
  others : ∀ place, o.workspace.place? out ≠ some place →
    (∀ path ∈ code?, o.workspace.place? path ≠ some place) →
      o.workspace.root.fileAt? place = w.root.fileAt? place
  ending : o.ending = .success ↔
    (∀ d ∈ g.diagnostics, d.severity ≠ .error) ∧
      ¬ (config.errorHandling.strictness = .strict ∧ ∃ d ∈ g.diagnostics, d.severity = .warning)

theorem isRejected_eq_false :
    isRejected config g = false ↔
      (∀ d ∈ g.diagnostics, d.severity ≠ .error) ∧
        ¬ (config.errorHandling.strictness = .strict ∧
          ∃ d ∈ g.diagnostics, d.severity = .warning) := by
  rw [isRejected, Bool.or_eq_false_iff, Generation.hasErrors_eq_false]
  refine and_congr ?_ ?_
  · simp [Diagnostic.isError]
  · simp [Config.isStrict, Generation.warningCount, Diagnostic.tally, Diagnostic.isWarning]

/-- Two files are saved, and all others are as before. -/
theorem saveOutputs_saves (hw : w.IsSound) {out : String} {code? : Option String}
    (hsave : w.saveOutputs g out code? = .ok w')
    (hplaces : ∀ path ∈ code?, w'.place? path ≠ w'.place? out) :
    w'.text out = .ok g.document.fileText ∧
      (∀ path ∈ code?, w'.text path = .ok g.registrationCode) ∧
      ∀ place, w'.place? out ≠ some place → (∀ path ∈ code?, w'.place? path ≠ some place) →
        w'.root.fileAt? place = w.root.fileAt? place := by
  obtain ⟨w₁, hdocument, hcode⟩ := bind_eq_ok.mp hsave
  obtain ⟨place, hsaved⟩ := Workspace.save_saves hw hdocument
  cases code? with
  | none =>
    obtain rfl := Except.ok.inj hcode
    refine ⟨hsaved.text, nofun, fun other hother _ => hsaved.keeps.root.files other ?_⟩
    rw [hsaved.leads] at hother
    simpa using fun h : other = place => hother (congrArg some h.symm)
  | some path =>
    obtain ⟨codePlace, hcodeSaved⟩ := Workspace.save_saves hsaved.keeps.sound hcode
    -- the document is not where the code has been saved
    have hleads := hcodeSaved.keeps.place? hsaved.keeps.sound hsaved.leads
    have hne : place ≠ codePlace := by
      rintro rfl
      exact hplaces path rfl (hcodeSaved.leads.trans hleads.symm)
    have hentry : w₁.entry out = .ok (.file g.document.fileText.toUTF8) := by
      rw [Workspace.entry_of_place hsaved.keeps.sound hsaved.leads, hsaved.found]
    refine ⟨Workspace.text_of_entry (hcodeSaved.keeps.entry hsaved.keeps.sound hsaved.leads
      (decide_eq_true hne) hentry), ?_, fun other hother hothers => ?_⟩
    · intro path' hpath'
      obtain rfl := Option.some.inj hpath'
      exact hcodeSaved.text
    · have hcodeOther := hothers path rfl
      rw [hleads] at hother
      rw [hcodeSaved.leads] at hcodeOther
      rw [hcodeSaved.keeps.root.files other (by simpa using fun h => hcodeOther (congrArg some h.symm)),
        hsaved.keeps.root.files other (by simpa using fun h => hother (congrArg some h.symm))]

/-- A run that nothing keeps from writing writes the two files and nothing else. -/
theorem hasWritten_of_isReady (hw : w.IsSound) (h : IsReady w config inputs g)
    (hsave : w.saveOutputs g (output.getD config.output.metadata) (code.or config.output.code) =
      .ok w')
    (hplaces : ∀ path ∈ code.or config.output.code,
      w'.place? path ≠ w'.place? (output.getD config.output.metadata)) :
    HasWritten w config g (output.getD config.output.metadata) (code.or config.output.code)
      (generate w config inputs output code) := by
  obtain ⟨hworkspace, hending⟩ := generate_of_isReady h hsave
  have hparallel := Generation.ofPaths_isParallel h.generated
  obtain ⟨hdocument, hcode, hothers⟩ := saveOutputs_saves hw hsave hplaces
  rw [← hworkspace] at hdocument hcode hothers
  rw [Generation.registrationCode_eq hparallel] at hcode
  refine ⟨hdocument, ⟨hparallel.length_eq.symm, hcode⟩, hothers, ?_⟩
  rw [hending, ← isRejected_eq_false]
  cases isRejected config g <;> decide

end Outcome

namespace Request

/-- What keeps a run of the generate command from writing anything. Source files that are larger than
the settings name do not count. -/
inductive GenerateObstacle (w : Workspace) (configPath : String) (inputs : List String) : Prop
  /-- The settings cannot be read. -/
  | config {failure : Failure} (h : Config.load w configPath = .error failure)
  /-- Nothing can be generated from the inputs. -/
  | input {config : Config} (hconfig : Config.load w configPath = .ok config)
      (h : Generation.Obstacle w config inputs)
  /-- There are more errors than allowed. -/
  | errors {config : Config} {g : Generation} (hconfig : Config.load w configPath = .ok config)
      (hg : Generation.ofPaths w config inputs = .ok g)
      (h : config.errorHandling.maxErrors.toNat < g.errorCount)
  /-- The document is to be checked, and it does not match its schema. -/
  | schema {config : Config} {g : Generation} {failure : Failure}
      (hconfig : Config.load w configPath = .ok config)
      (hg : Generation.ofPaths w config inputs = .ok g) (hvalidate : config.validateOutput = true)
      (h : g.document.check = .error failure)

/-- The run of the generate command breaks off: the limit of the file size does not fit into 64 bits. -/
def GenerateOverflow (w : Workspace) (configPath : String) (inputs : List String) : Prop :=
  ∃ config, Config.load w configPath = .ok config ∧ Generation.Overflows w config inputs

variable {w : Workspace} {config : Config} {configPath : String} {inputs : List String}

/-- Nothing but an obstacle keeps a run from writing that does not break off. -/
theorem not_generateObstacle_iff (hfits : ¬ GenerateOverflow w configPath inputs) :
    ¬ GenerateObstacle w configPath inputs ↔
      ∃ config g, Config.load w configPath = .ok config ∧ Outcome.IsReady w config inputs g := by
  constructor
  · intro hfree
    cases hconfig : Config.load w configPath with
    | error failure => exact absurd (.config hconfig) hfree
    | ok config =>
      have hinputs : ¬ Generation.Obstacle w config inputs := fun h => hfree (.input hconfig h)
      have hlimit : ¬ Generation.Overflows w config inputs := fun h => hfits ⟨config, hconfig, h⟩
      obtain ⟨g, hg⟩ := Generation.exists_ofPaths_eq_ok.mpr ⟨hinputs, hlimit⟩
      refine ⟨config, g, rfl, hg, Nat.not_lt.mp fun h => hfree (.errors hconfig hg h), ?_⟩
      intro hvalidate
      cases hcheck : g.document.check with
      | ok _ => rfl
      | error failure => exact absurd (.schema hconfig hg hvalidate hcheck) hfree
  · rintro ⟨config, g, hconfig, hg, herrors, hvalid⟩ hobstacle
    cases hobstacle with
    | config h =>
      rw [h] at hconfig
      cases hconfig
    | input hconfig' h =>
      obtain rfl := Except.ok.inj (hconfig.symm.trans hconfig')
      exact (Generation.exists_ofPaths_eq_ok.mp ⟨g, hg⟩).1 h
    | errors hconfig' hg' h =>
      obtain rfl := Except.ok.inj (hconfig.symm.trans hconfig')
      obtain rfl := Except.ok.inj (hg.symm.trans hg')
      exact Nat.not_lt.mpr herrors h
    | schema hconfig' hg' hvalidate h =>
      obtain rfl := Except.ok.inj (hconfig.symm.trans hconfig')
      obtain rfl := Except.ok.inj (hg.symm.trans hg')
      rw [hvalid hvalidate] at h
      cases h

theorem run_eq_generate {config? : Option String} {output code : Option String}
    (h : Config.load w (config?.getD Config.fileName) = .ok config) :
    Request.run w ⟨config?, .generate inputs output code⟩ =
      Outcome.generate w config inputs output code := by
  rw [run]
  simp only [h]

/-- A run of the generate command breaks off before it writes anything if the limit of the file size does
not fit into 64 bits. Otherwise it stops before it writes anything if there is an obstacle, and fails. If
there is none, it writes the document and the registration code, if it can, and no other file, and fails
only because of its diagnostics. -/
theorem run_generate_writes_all_or_nothing (w : Workspace) (hw : w.IsSound)
    (config? : Option String) (inputs : List String) (output code : Option String) :
    let configPath := config?.getD Config.fileName
    let o := Request.run w ⟨config?, .generate inputs output code⟩
    (GenerateOverflow w configPath inputs → o.HasCrashed w) ∧
    (¬ GenerateOverflow w configPath inputs →
      (GenerateObstacle w configPath inputs → o.HasStopped w) ∧
      (¬ GenerateObstacle w configPath inputs →
        ∃ config g, Config.load w configPath = .ok config ∧
          Generation.ofPaths w config inputs = .ok g ∧
          let out := output.getD config.output.metadata
          let code? := code.or config.output.code
          ∀ w', w.saveOutputs g out code? = .ok w' →
            (∀ path ∈ code?, w'.place? path ≠ w'.place? out) →
              o.workspace = w' ∧ Outcome.HasWritten w config g out code? o)) := by
  intro configPath o
  refine ⟨?_, fun hfits => ⟨fun hobstacle => ?_, fun hfree => ?_⟩⟩
  · rintro ⟨config, hconfig, hoverflow⟩
    rw [show o = _ from run_eq_generate hconfig]
    exact Outcome.hasCrashed_of_overflows hoverflow
  · have hready := fun h => (not_generateObstacle_iff hfits).mpr h hobstacle
    cases hconfig : Config.load w configPath with
    | error failure =>
      simp only [o, run, show Config.load w (config?.getD Config.fileName) = _ from hconfig]
      exact ⟨rfl, rfl⟩
    | ok config =>
      rw [show o = _ from run_eq_generate hconfig]
      exact Outcome.hasStopped_of_not_isReady (fun h => hfits ⟨config, hconfig, h⟩)
        fun g h => hready ⟨config, g, hconfig, h⟩
  · obtain ⟨config, g, hconfig, hready⟩ := (not_generateObstacle_iff hfits).mp hfree
    refine ⟨config, g, hconfig, hready.generated, fun w' hsave hplaces => ?_⟩
    rw [show o = _ from run_eq_generate hconfig]
    exact ⟨(Outcome.generate_of_isReady hready hsave).1,
      Outcome.hasWritten_of_isReady hw hready hsave hplaces⟩

/-- A folder with settings and a source file. -/
def folderOf (settings source : String) : Workspace where
  root := .file Config.fileName settings.toUTF8 (.file "a.ts" source.toUTF8 .empty)

/-- A folder with the source of an addition, where all settings are left out. -/
def additionFolder : Workspace :=
  folderOf "{}" "/** @customfunction */ function add() {}"

theorem additionFolder_isSound : additionFolder.IsSound :=
  ⟨by decide +kernel, _, rfl⟩

theorem load_additionFolder : Config.load additionFolder Config.fileName = .ok {} := by
  decide +kernel

theorem exists_isReady_additionFolder :
    ∃ g, Outcome.IsReady additionFolder {} ["a.ts"] g ∧ g.associations = [⟨"ADD", "add"⟩] ∧
      g.diagnostics = [] := by
  have hgeneration : (Generation.ofPaths additionFolder {} ["a.ts"]).toOption.map
      (fun g => (g.associations, g.diagnostics)) = some ([⟨"ADD", "add"⟩], []) := by
    decide +kernel
  cases hg : Generation.ofPaths additionFolder {} ["a.ts"] with
  | error failure => rw [hg] at hgeneration; cases hgeneration
  | ok g =>
    rw [hg, Except.toOption, Option.map_some, Option.some.injEq, Prod.mk.injEq] at hgeneration
    obtain ⟨hassociations, hdiagnostics⟩ := hgeneration
    refine ⟨g, ⟨hg, ?_, nofun⟩, hassociations, hdiagnostics⟩
    rw [Generation.errorCount, hdiagnostics]
    exact Nat.zero_le _

/-- The document and the registration code of an addition are written. -/
theorem run_generate_writes_addition :
    let w := additionFolder
    let o := Request.run w ⟨none, .generate ["a.ts"] none (some "register.js")⟩
    w.IsSound ∧
      ¬ GenerateOverflow w Config.fileName ["a.ts"] ∧
      ¬ GenerateObstacle w Config.fileName ["a.ts"] ∧
      o.ending = .success ∧
      o.workspace.text "register.js" = .ok "CustomFunctions.associate(\"ADD\", add);\n" := by
  intro w o
  have hload : Config.load w Config.fileName = .ok {} := load_additionFolder
  have hfits : ¬ GenerateOverflow w Config.fileName ["a.ts"] := by
    rintro ⟨config, hconfig, hoverflow⟩
    obtain rfl := Except.ok.inj (hload.symm.trans hconfig)
    exact absurd hoverflow.limit (by decide +kernel)
  obtain ⟨g, hready, hassociations, hdiagnostics⟩ := exists_isReady_additionFolder
  have hfree : ¬ GenerateObstacle w Config.fileName ["a.ts"] :=
    (not_generateObstacle_iff hfits).mpr ⟨{}, g, hload, hready⟩
  obtain ⟨w', hsave, hout, hcode⟩ : ∃ w',
      w.saveOutputs g "functions.json" (some "register.js") = .ok w' ∧
        w'.place? "functions.json" = some ["functions.json"] ∧
          w'.place? "register.js" = some ["register.js"] := ⟨_, rfl, rfl, rfl⟩
  obtain ⟨config, g', hconfig, hg, hwritten⟩ :=
    ((run_generate_writes_all_or_nothing w additionFolder_isSound none ["a.ts"] none
      (some "register.js")).2 hfits).2 hfree
  obtain rfl := Except.ok.inj (hload.symm.trans hconfig)
  obtain rfl := Except.ok.inj (hready.generated.symm.trans hg)
  obtain ⟨_, h⟩ := hwritten w' hsave fun path hpath => by
    obtain rfl := Option.some.inj hpath
    have hne : some ["register.js"] ≠ some ["functions.json"] := by decide
    rwa [← hcode, ← hout] at hne
  refine ⟨additionFolder_isSound, hfits, hfree, h.ending.mpr ?_, ?_⟩
  · rw [hdiagnostics]
    exact ⟨nofun, fun h => nomatch h.1⟩
  · rw [h.code.2 "register.js" rfl,
      ← Generation.registrationCode_eq (Generation.ofPaths_isParallel hg),
      Generation.registrationCode, hassociations]
    decide +kernel

/-- A run breaks off where it should tell that a source file is no program: the limit that the settings
name does not fit into 64 bits. -/
theorem not_forall_generateObstacle_hasStopped :
    ¬ ∀ (w : Workspace) (config? : Option String) (inputs : List String) (output code : Option String),
      w.IsSound → GenerateObstacle w (config?.getD Config.fileName) inputs →
        (Request.run w ⟨config?, .generate inputs output code⟩).HasStopped w := by
  intro h
  let w := folderOf "\x7b\"limits\": \x7b\"maxFileSizeMb\": 17592186044416\x7d\x7d" "function f() \x7b"
  have hload : Config.load w Config.fileName =
      .ok { limits := { maxFileSizeMb := 17592186044416 } } := by decide +kernel
  have hfails : (SourceUnit.ofText "a.ts" .typeScript "function f() \x7b").isOk = false := by
    decide +kernel
  have hcrash : (Request.run w ⟨none, .generate ["a.ts"] none none⟩).ending = .crash := by
    decide +kernel
  cases hunit : SourceUnit.ofText "a.ts" .typeScript "function f() \x7b" with
  | ok unit => rw [hunit] at hfails; cases hfails
  | error line =>
    have hobstacle : GenerateObstacle w Config.fileName ["a.ts"] := by
      have hsource : w.IsSource { limits := { maxFileSizeMb := 17592186044416 } } ["a.ts"] "a.ts" :=
        ⟨"a.ts", List.mem_singleton_self _, _, rfl, List.mem_singleton_self _⟩
      refine .input hload (.syntaxError hsource rfl ?_ rfl rfl hunit)
      decide +kernel
    have hstopped := h w none ["a.ts"] none none ⟨by decide +kernel, _, rfl⟩ hobstacle
    have hending := hstopped.ending
    rw [hcrash] at hending
    cases hending

end Request

end CustomFunctions
