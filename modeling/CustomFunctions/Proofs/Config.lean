import CustomFunctions.Command.Run
import CustomFunctions.Proofs.Files.Saving
import CustomFunctions.Proofs.Json.Records

/-!
# Settings saved and loaded

Settings that are written to a file are read back as they were, whatever their texts, their numbers
and their flags are. So settings that have been loaded from any text do not change any more when they
are saved and loaded again: all that a file leaves out, spells otherwise or adds is settled when it is
loaded for the first time.

## Main definitions

- `Config.ofRaw?_raw` — the written settings stand for the settings
- `Config.saved_loads_same` — saving and loading gives the same settings
-/

namespace CustomFunctions.Config

open Json.Raw

-- ════════════════════════════════════════════════════════════════════════
-- Groups of settings
-- ════════════════════════════════════════════════════════════════════════

theorem optionalText?_raw (s : String) : optionalText? (Json.string s).raw = some (some s) := by
  have htext := text?_raw s
  rw [Json.raw] at htext ⊢
  rw [optionalText?, htext, Option.map_some]
  intro h
  cases h

theorem ofOutput?_raw (o : OutputPaths) : ofOutput? (outputJson o).raw = some o := by
  obtain ⟨metadata, code⟩ := o
  have hrecord : IsRecord ["metadata", "code"]
      ([("metadata", .string metadata)] ++ optionalField "code" code)
      (outputJson ⟨metadata, code⟩) := by
    refine ⟨rfl, ?_, ?_⟩
    all_goals cases code <;> simp [optionalField]
  have hcode : field? (written ([("metadata", .string metadata)] ++ optionalField "code" code))
      "code" none optionalText? = some code := by
    cases code with
    | none => exact field?_of_missing (by simp [optionalField])
    | some path => exact hrecord.field?_eq "code" (by simp [optionalField]) (optionalText?_raw path)
  rw [ofOutput?, hrecord.recordFields?_eq]
  simp only [Option.bind_eq_bind, Option.bind_some, hcode,
    hrecord.field?_eq "metadata" (by simp) (text?_raw metadata)]
  rfl

theorem ofStrictness?_raw (s : Strictness) : ofStrictness? (Json.string s.name).raw = some s := by
  rw [ofStrictness?, wordOf?_raw]
  cases s <;> rfl

theorem ofErrorHandling?_raw (e : ErrorHandling) :
    ofErrorHandling? (errorHandlingJson e).raw = some e := by
  have hrecord : IsRecord ["strictness", "maxErrors"] _ (errorHandlingJson e) :=
    ⟨rfl, by simp, by simp⟩
  rw [ofErrorHandling?, hrecord.recordFields?_eq]
  simp only [Option.bind_eq_bind, Option.bind_some,
    hrecord.field?_eq "strictness" (by simp) (ofStrictness?_raw e.strictness),
    hrecord.field?_eq "maxErrors" (by simp) (word?_raw e.maxErrors)]
  rfl

theorem ofMetadata?_raw (m : DocumentFlags) : ofMetadata? (metadataJson m).raw = some m := by
  have hrecord : IsRecord ["allowCustomDataForDataTypeAny", "allowErrorForDataTypeAny"] _
      (metadataJson m) :=
    ⟨rfl, by simp, by simp⟩
  rw [ofMetadata?, hrecord.recordFields?_eq]
  simp only [Option.bind_eq_bind, Option.bind_some,
    hrecord.field?_eq "allowCustomDataForDataTypeAny" (by simp)
      (bool?_raw m.allowCustomDataForDataTypeAny),
    hrecord.field?_eq "allowErrorForDataTypeAny" (by simp) (bool?_raw m.allowErrorForDataTypeAny)]
  rfl

theorem ofLimits?_raw (l : Limits) : ofLimits? (limitsJson l).raw = some l := by
  have hrecord : IsRecord ["maxFileSizeMb"] _ (limitsJson l) := ⟨rfl, by simp, by simp⟩
  rw [ofLimits?, hrecord.recordFields?_eq]
  simp only [Option.bind_eq_bind, Option.bind_some,
    hrecord.field?_eq "maxFileSizeMb" (by simp) (word?_raw l.maxFileSizeMb)]
  rfl

-- ════════════════════════════════════════════════════════════════════════
-- All settings
-- ════════════════════════════════════════════════════════════════════════

/-- The written settings stand for the settings. -/
theorem ofRaw?_raw (c : Config) : ofRaw? c.toJson.raw = some c := by
  have hrecord : IsRecord
      ["include", "exclude", "output", "errorHandling", "metadata", "limits", "validateOutput"] _
      c.toJson :=
    ⟨rfl, by simp, by simp⟩
  rw [ofRaw?, hrecord.recordFields?_eq]
  simp only [Option.bind_eq_bind, Option.bind_some,
    hrecord.field?_eq "include" (by simp) (texts?_raw c.included),
    hrecord.field?_eq "exclude" (by simp) (texts?_raw c.excluded),
    hrecord.field?_eq "output" (by simp) (ofOutput?_raw c.output),
    hrecord.field?_eq "errorHandling" (by simp) (ofErrorHandling?_raw c.errorHandling),
    hrecord.field?_eq "metadata" (by simp) (ofMetadata?_raw c.metadata),
    hrecord.field?_eq "limits" (by simp) (ofLimits?_raw c.limits),
    hrecord.field?_eq "validateOutput" (by simp) (bool?_raw c.validateOutput)]
  rfl

/-- Settings are written without binary numbers. -/
theorem isWritable_toJson (c : Config) : c.toJson.IsWritable := by
  have htexts : ∀ texts : List String, (Json.array (texts.map .string)).IsWritable := by
    intro texts
    refine .array ?_
    rw [List.forall_mem_map]
    exact fun s _ => .string s
  have houtput : (outputJson c.output).IsWritable := by
    refine .object (List.forall_mem_append.mpr ⟨?_, ?_⟩)
    · exact List.forall_mem_singleton.mpr (.string _)
    · intro f hf
      obtain ⟨path, _, rfl⟩ := Option.map_eq_some_iff.mp (Option.mem_toList.mp hf)
      exact .string path
  have herrors : (errorHandlingJson c.errorHandling).IsWritable :=
    .object (List.forall_mem_cons.mpr ⟨.string _, List.forall_mem_singleton.mpr (.int _)⟩)
  have hmetadata : (metadataJson c.metadata).IsWritable :=
    .object (List.forall_mem_cons.mpr ⟨.bool _, List.forall_mem_singleton.mpr (.bool _)⟩)
  have hlimits : (limitsJson c.limits).IsWritable :=
    .object (List.forall_mem_singleton.mpr (.int _))
  refine .object ?_
  simp only [List.forall_mem_cons, List.not_mem_nil, false_implies, implies_true, and_true]
  exact ⟨htexts _, htexts _, houtput, herrors, hmetadata, hlimits, .bool _⟩

/-- The text of the settings is read back as the settings. -/
theorem read?_text (c : Config) : read? c.text = some c := by
  have hread : Json.Raw.read? (Json.prettyChars 0 c.toJson ++ []) = some c.toJson.raw :=
    Json.Raw.read?_pretty c.isWritable_toJson nofun
  rw [List.append_nil] at hread
  rw [read?, text, Json.pretty, String.toList_ofList, hread, Option.bind_some, ofRaw?_raw]

/-- Settings that have been written to a file are loaded from it. -/
theorem load_of_write {w w' : Workspace} (hw : w.IsSound) {path : String} {c : Config}
    (h : w.write path c.text = .ok w') : load w' path = .ok c := by
  obtain ⟨place, hsaves⟩ := Workspace.write_saves hw h
  have hentry : w'.entry path = .ok (.file c.text.toUTF8) := by
    rw [Workspace.entry_of_place hsaves.keeps.sound hsaves.leads, hsaves.found]
  rw [load, hentry, hsaves.text]
  dsimp only
  rw [read?_text]

/-- Saved settings are loaded as they are, and settings that any text stands for are the same when
they are saved and loaded again, be it as a text or in a file. -/
theorem saved_loads_same :
    (∀ c : Config, read? c.text = some c) ∧
      (∀ s : String, ((read? s).map text).bind read? = read? s) ∧
      ∀ (w w' : Workspace) (path : String) (c : Config), w.IsSound →
        w.write path c.text = .ok w' → load w' path = .ok c := by
  refine ⟨read?_text, ?_, ?_⟩
  · intro s
    cases read? s with
    | none => rfl
    | some c => exact read?_text c
  · intro w w' path c hw h
    exact load_of_write hw h

/-- Settings with a quotation mark, a backslash and a control character in their texts, and with the
greatest number of errors. -/
def oddSettings : Config where
  included := ["**/*.ts", "a \"quoted\" \\ path\n", "größe \x01"]
  excluded := []
  output := { metadata := "", code := some "" }
  errorHandling := { strictness := .strict, maxErrors := 18446744073709551615 }
  limits := { maxFileSizeMb := 0 }
  validateOutput := true

/-- The settings are written to a file of an empty folder and loaded from it. -/
theorem saved_loads_same_oddSettings :
    ({} : Workspace).IsSound ∧ ∃ w', ({} : Workspace).write fileName oddSettings.text = .ok w' ∧
      load w' fileName = .ok oddSettings := by
  have hsound : ({} : Workspace).IsSound := ⟨trivial, .empty, rfl⟩
  have hwrite : ∀ content : String, ({} : Workspace).write fileName content =
      .ok { root := .file fileName content.toUTF8 .empty } := by
    intro content
    rfl
  exact ⟨hsound, _, hwrite _, saved_loads_same.2.2 _ _ _ _ hsound (hwrite _)⟩

end CustomFunctions.Config
