import CustomFunctions.Config
import CustomFunctions.Files.Folder
import CustomFunctions.Glob
import CustomFunctions.Script.Declarations

/-!
# Source files

The source files that a run is given, one by one or as folders, and what is generated from them. A
folder stands for its files whose paths in it match the patterns of the configuration, in the order
of a walk that visits the entries of each folder by name.

## Main definitions

- `Workspace.sourcePaths` — the paths of the files that a run is given
- `Generation.ofText` — the generation of a source text
- `Generation.ofPaths` — the generation of all files that a run is given
-/

namespace CustomFunctions

namespace Workspace

/-- The pattern that each text stands for. -/
def compilePatterns (texts : List String) : Except Failure (List Glob) :=
  match texts.mapM Glob.compile with
  | .ok patterns => .ok patterns
  | .error e => .error (.pattern e)

/-- Is a file of a folder selected by patterns, one of which it must match if there are any, and by
patterns that it must not match? -/
def isSelected (included excluded : List Glob) (path : String) : Bool :=
  let path := path.map fun c => if c = '\\' then '/' else c
  (included.isEmpty || included.any (·.accepts path)) && ! excluded.any (·.accepts path)

/-- The paths of the selected files in a folder, which is found at the given path. -/
def folderPaths (config : Config) (path : String) (contents : Folder) :
    Except Failure (List String) := do
  let included ← compilePatterns config.included
  let excluded ← compilePatterns config.excluded
  let found := ((contents.files "").map (·.1)).filter (isSelected included excluded)
  return found.map fun inner => String.ofList (Path.join path.toList inner.toList)

/-- The paths of the files that one input stands for. -/
def inputPaths (w : Workspace) (config : Config) (input : String) :
    Except Failure (List String) :=
  match w.entry input with
  | .ok (.folder contents) => folderPaths config input contents
  | _ => .ok [input]

/-- The paths of the files that a run is given. -/
def sourcePaths (w : Workspace) (config : Config) (inputs : List String) :
    Except Failure (List String) := do
  return (← inputs.mapM (w.inputPaths config)).flatten

end Workspace

namespace Generation

/-- The generation of a source text. -/
def ofText (config : Config) (path text : String) : Except Failure Generation :=
  match Language.ofPath? path with
  | none => .error (.unsupportedLanguage (Path.plainExtension path))
  | some language =>
    match SourceUnit.ofText path language text with
    | .ok unit => .ok (ofUnit config.metadata unit)
    | .error line => .error (.syntaxError path line)

/-- The generation of the file at a path, unless it has more bytes than the limit. -/
def ofPath (w : Workspace) (config : Config) (limit : Nat) (path : String) :
    Except Failure (Option Generation) :=
  match w.entry path with
  | .error fault => .error (.file fault)
  | .ok (.folder _) => .error (.file .isFolder)
  | .ok (.file bytes) =>
    if limit < bytes.size then .ok none
    else
      match w.text path with
      | .ok text => (ofText config path text).map some
      | .error fault => .error (.file fault)

/-- The generation of all files that a run is given. The limit on their size is computed when they
are known and before one of them is read. -/
def ofPaths (w : Workspace) (config : Config) (inputs : List String) :
    Except Failure Generation := do
  let paths ← w.sourcePaths config inputs
  if paths = [] then throw .noInputs
  match config.maxFileSize? with
  | none => throw .overflow
  | some limit =>
    let generations ← paths.mapM (ofPath w config limit.toNat)
    return merge (generations.filterMap id)

end Generation

end CustomFunctions
