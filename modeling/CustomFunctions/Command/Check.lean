import CustomFunctions.Command.Generate
import CustomFunctions.Diff.Text

/-!
# The check command and the validate command

The first compares a document with what is generated from the source files, the second checks a
document against its schema. Neither writes a file.
-/

namespace CustomFunctions.Outcome

/-- The text of the document at a path; empty if there is no file. -/
def existingText (w : Workspace) (path : String) : Except FileFault String :=
  match w.text path with
  | .error .notFound => .ok ""
  | found => found

/-- Compares a document with what the source files give. -/
def check (w : Workspace) (config : Config) (inputs : List String) (against : String) : Outcome :=
  ofCourse do
    let o : Outcome := { workspace := w }
    let g ← o.attempt (Generation.ofPaths w config inputs)
    let o := o.showDiagnostics g.diagnostics
    let current ← o.attemptFile (existingText w against)
    match Diff.render current g.document.fileText with
    | none => return o.say ("✓ " ++ against ++ " is up to date")
    | some diff => throw ((o.refuse (against ++ " is out of date:\n")).complain diff)

/-- The violations of a schema as lines. -/
def violationLines (violations : List String) : String :=
  String.join ((Text.lines ("\n".intercalate violations).toList).map fun line =>
    "  " ++ String.ofList line ++ "\n")

/-- Checks a document against its schema. -/
def validate (w : Workspace) (file : String) : Outcome :=
  ofCourse do
    let o : Outcome := { workspace := w }
    let content ← o.attemptFile (w.text file)
    match Schema.checkText content with
    | .error (.schema violations) =>
      throw ((o.refuse (file ++ " does not match the schema:")).complain (violationLines violations))
    | result => o.attempt result
    return o.say ("✓ " ++ file ++ " is a valid functions.json file")

end CustomFunctions.Outcome
