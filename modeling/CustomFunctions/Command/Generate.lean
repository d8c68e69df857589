import CustomFunctions.Command.Outcome
import CustomFunctions.Schema.Metadata

/-!
# The generate command

Generates the document, and if asked for the registration code, and writes them. What is valid is
written even if some declarations are rejected; that the run failed tells the rejections. With more
errors than the configuration allows, nothing is written.
-/

namespace CustomFunctions

/-- The text of a file with the document. -/
def Document.fileText (d : Document) : String :=
  d.text ++ "\n"

namespace Outcome

/-- Ends the command if there are more errors than allowed. -/
def limitErrors (o : Outcome) (config : Config) (g : Generation) : Course Unit :=
  if config.errorHandling.maxErrors.toNat < g.errorCount then
    .error (o.refuse (toString g.errorCount ++ " errors exceed the limit of "
      ++ toString config.errorHandling.maxErrors.toNat ++ "; no output written"))
  else .ok ()

/-- Checks the document against its schema, if the configuration asks for it. -/
def checkDocument (o : Outcome) (config : Config) (g : Generation) : Course Outcome :=
  if config.validateOutput then do
    o.attempt g.document.check
    return o.say "✓ Metadata matches the functions.json schema"
  else .ok o

/-- Makes the folder for a file that is to be written. -/
def prepare (o : Outcome) (path : String) : Course Outcome := do
  return { o with workspace := ← o.attemptFile (o.workspace.makeParent path) }

/-- Writes the document. -/
def writeDocument (o : Outcome) (path : String) (g : Generation) : Course Outcome := do
  let o ← o.prepare path
  match o.workspace.write path g.document.fileText with
  | .ok workspace => return { o with workspace }.say ("✓ Metadata written to " ++ path)
  | .error fault => o.attempt (.error (.file fault))

/-- Writes the registration code, if there is a path for it. -/
def writeCode (o : Outcome) (path? : Option String) (g : Generation) : Course Outcome :=
  match path? with
  | none => .ok o
  | some path => do
    let o ← o.prepare path
    let workspace ← o.attemptFile (o.workspace.write path g.registrationCode)
    return { o with workspace }.say ("✓ Registration code written to " ++ path)

/-- Writes how much has been generated. -/
def summarize (o : Outcome) (g : Generation) : Outcome :=
  let o := o.say ("  Files: " ++ toString g.inputs.length)
  let o := o.say ("  Functions: " ++ toString g.document.functions.length)
  let o := o.say ("  Enums: " ++ toString g.document.enums.length)
  if 0 < g.errorCount ∨ 0 < g.warningCount then
    o.say ("  Diagnostics: " ++ toString g.errorCount ++ " errors, " ++ toString g.warningCount
      ++ " warnings")
  else o

/-- Does the run fail because of its diagnostics? -/
def isRejected (config : Config) (g : Generation) : Bool :=
  g.hasErrors || (config.isStrict && 0 < g.warningCount)

/-- Generates the document from source files. -/
def generate (w : Workspace) (config : Config) (inputs : List String)
    (output code : Option String) : Outcome :=
  ofCourse do
    let o := { workspace := w : Outcome }.say "→ Generating custom functions metadata..."
    let g ← o.attempt (Generation.ofPaths w config inputs)
    let o := o.showDiagnostics g.diagnostics
    o.limitErrors config g
    let o ← o.checkDocument config g
    let o ← o.writeDocument (output.getD config.output.metadata) g
    let o ← o.writeCode (code.or config.output.code) g
    let o := o.summarize g
    if isRejected config g then
      throw (o.refuse "Some declarations were rejected; see diagnostics above")
    return o

end Outcome

end CustomFunctions
