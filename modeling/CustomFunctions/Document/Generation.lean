import CustomFunctions.Document.Basic
import CustomFunctions.Review.Basic

/-!
# Generations

What is generated from source files: the document, the calls that register the functions, and the
diagnostics. The generations of several files are merged in order, and the first file that claims an
id, a name or an enum id keeps it.

## Main definitions

- `Generation.ofUnit` — the generation of one source file
- `Generation.merge` — the generation of several files from those of each file
-/

namespace CustomFunctions

/-- The link between a function id and the function in the code. -/
structure Association where
  id : String
  functionName : String
deriving DecidableEq, Inhabited

/-- What is generated from source files. The associations stand in the order of the functions of the
document. -/
structure Generation where
  document : Document := {}
  associations : List Association := []
  diagnostics : List Diagnostic := []
  /-- The files that the generation comes from. -/
  inputs : List String := []
deriving DecidableEq, Inhabited

/-- The flags of the document that are set from outside. -/
structure DocumentFlags where
  allowCustomDataForDataTypeAny : Bool := false
  allowErrorForDataTypeAny : Bool := false
deriving DecidableEq, Inhabited

namespace Association

def ofSignature (f : Signature) : Association :=
  ⟨f.id, f.codeName⟩

/-- The call that registers the function. -/
def call (a : Association) : String :=
  s!"CustomFunctions.associate({(Json.string a.id).compact}, {a.functionName});"

end Association

namespace Generation

def errorCount (g : Generation) : Nat :=
  (Diagnostic.tally g.diagnostics).1

def warningCount (g : Generation) : Nat :=
  (Diagnostic.tally g.diagnostics).2

def hasErrors (g : Generation) : Bool :=
  0 < g.errorCount

/-- The code that registers all functions, one call on each line. -/
def registrationCode (g : Generation) : String :=
  String.join (g.associations.map fun a => a.call ++ "\n")

/-- A generation from parts that have been accepted. -/
def assemble (flags : DocumentFlags) (inputs : List String) (accepted : List Signature)
    (enums : EnumRegistry) (diagnostics : List Diagnostic) : Generation where
  document := {
    allowCustomDataForDataTypeAny := flags.allowCustomDataForDataTypeAny
    allowErrorForDataTypeAny := flags.allowErrorForDataTypeAny
    functions := accepted.map FunctionEntry.ofSignature
    enums := enums.valid.map EnumEntry.ofEnum }
  associations := accepted.map Association.ofSignature
  diagnostics
  inputs

/-- The reviews of the functions of a source file. -/
def reviews (unit : SourceUnit) : List Review :=
  let registry := (EnumRegistry.scan unit).1
  Review.all .empty (unit.functions.filterMap (Candidate.ofDecl? registry))

/-- The generation of one source file. Enums are registered first, so that functions may refer to
enums declared anywhere in the file. -/
def ofUnit (flags : DocumentFlags) (unit : SourceUnit) : Generation :=
  let (registry, problems) := EnumRegistry.scan unit
  let reviews := reviews unit
  assemble flags [unit.displayPath] ((reviews.filter Review.isAccepted).map (·.signature)) registry
    (problems ++ (reviews.flatMap (·.diagnostics)).map (·.inFile unit.displayPath))

/-- What the functions of a generation claim. -/
def claims (g : Generation) : DuplicateTable :=
  ⟨List.zipWith (fun f a => ⟨f.id, f.name, a.functionName⟩) g.document.functions g.associations⟩

/-- An error about a declaration of a merged file. -/
def mergeError (subject : Subject) (name message : String) (file : Option String) : Diagnostic where
  severity := .error
  subject
  subjectName := name
  message
  file

/-- Adds a function of a file, unless it clashes with one that is already there. -/
def addFunction (file : Option String) (g : Generation) (f : FunctionEntry) (a : Association) :
    Generation :=
  match g.claims.conflicts f.id f.name with
  | [] =>
    { g with
      document := { g.document with functions := g.document.functions ++ [f] }
      associations := g.associations ++ [a] }
  | conflicts =>
    { g with
      diagnostics := g.diagnostics
        ++ conflicts.map fun c => mergeError .function a.functionName c.message file }

/-- Adds an enum of a file, unless one with the same id, in any letter case, is already there. -/
def addEnum (file : Option String) (g : Generation) (e : EnumEntry) : Generation :=
  if g.document.enums.any fun other => Text.lowerCase other.id = Text.lowerCase e.id then
    { g with
      diagnostics := g.diagnostics
        ++ [mergeError .enum e.id (EnumProblem.duplicate e.id).message file] }
  else { g with document := { g.document with enums := g.document.enums ++ [e] } }

/-- The generation with the flags, the diagnostics and the inputs of a further one. -/
def addHeader (g next : Generation) : Generation :=
  { g with
    document := { g.document with
      allowCustomDataForDataTypeAny :=
        g.document.allowCustomDataForDataTypeAny || next.document.allowCustomDataForDataTypeAny
      allowErrorForDataTypeAny :=
        g.document.allowErrorForDataTypeAny || next.document.allowErrorForDataTypeAny }
    diagnostics := g.diagnostics ++ next.diagnostics
    inputs := g.inputs ++ next.inputs }

/-- Merges the generation of a further file into one. -/
def add (g next : Generation) : Generation :=
  let file := next.inputs.head?
  let withFunctions := (next.document.functions.zip next.associations).foldl
    (fun g (f, a) => g.addFunction file f a) (g.addHeader next)
  next.document.enums.foldl (addEnum file) withFunctions

/-- The generation of several files, the first file to claim something keeping it. -/
def merge (gs : List Generation) : Generation :=
  gs.foldl add {}

end Generation

end CustomFunctions
