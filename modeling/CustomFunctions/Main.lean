import CustomFunctions.Command.Run

/-!
# The command line

Takes in the files that a request can reach, runs the request on them, and writes what has changed.
-/

open CustomFunctions

/-- The names of a path from the root, where relative paths start at the given names. -/
def absoluteNames (here : List String) (path : String) : List String :=
  let names := (Path.components path.toList).map String.ofList
  let start := if Path.isAbsolute path.toList then [] else here
  (start ++ names).foldl (fun done name => if name = ".." then done.dropLast else done ++ [name]) []

/-- The path from the root that the names stand for. -/
def rootPath (names : List String) : String :=
  "/" ++ "/".intercalate names

/-- The names in the folder at a path; none if there is no folder. -/
def namesIn (names : List String) : IO (Option (List String)) := do
  try
    let entries ← (← IO.FS.realPath (rootPath names)).readDir
    return some (entries.toList.map (·.fileName))
  catch _ => return none

/-- Takes in the file at a path, if there is one. -/
def takeInFile (root : Folder) (names : List String) : IO Folder := do
  try
    return root.setAt (.file (← IO.FS.readBinFile (rootPath names))) names
  catch _ => return root

/-- Takes in the file or the folder at a path, with all that is in it. -/
partial def takeIn (root : Folder) (names : List String) : IO Folder := do
  match ← namesIn names with
  | none => takeInFile root names
  | some entries =>
    let mut root := root.setAt (.folder .empty) names
    for entry in entries do
      root ← takeIn root (names ++ [entry])
    return root

/-- Takes in the file or the folder at a path, but not what is in the folder. -/
def takeInEntry (root : Folder) (names : List String) : IO Folder := do
  if (root.findAt? names).isSome then return root
  match ← namesIn names with
  | none => takeInFile root names
  | some _ => return root.setAt (.folder .empty) names

/-- Takes in what stands on the way to a path, and what stands at its end. -/
def takeInPath (here : List String) (root : Folder) (path : String) : IO Folder := do
  let names := absoluteNames here path
  let mut root := root
  for n in List.range names.length do
    root ← takeInEntry root (names.take n)
  takeIn root names

/-- Takes in what stands on the way to a path that is written to. -/
def takeInTarget (here : List String) (root : Folder) (path : String) : IO Folder := do
  let names := absoluteNames here path
  let mut root := root
  for n in List.range (names.length + 1) do
    root ← takeInEntry root (names.take n)
  return root

/-- The paths that work reads. -/
def readPaths : Work → List String
  | .generate inputs _ _ => inputs
  | .check inputs against => inputs ++ [against]
  | .validate file => [file]

/-- The paths that work writes to. -/
def writePaths (config : Config) : Work → List String
  | .generate _ output code =>
    output.getD config.output.metadata :: (code.or config.output.code).toList
  | _ => []

/-- Runs a request on the files that it can reach. -/
def runRequest (request : Request) : IO UInt32 := do
  let here := absoluteNames [] (← IO.currentDir).toString
  let configPath := request.config.getD Config.fileName
  let mut root := Folder.empty.setAt (.folder .empty) here
  for path in configPath :: readPaths request.work do
    root ← takeInPath here root path
  let config := (Config.load { root, here } configPath).toOption.getD {}
  for path in writePaths config request.work do
    root ← takeInTarget here root path
  let start : Workspace := { root, here }
  let outcome := request.run start
  for (path, bytes) in outcome.workspace.changes start do
    let names := absoluteNames [] path
    IO.FS.createDirAll (rootPath names.dropLast)
    IO.FS.writeBinFile (rootPath names) bytes
  (← IO.getStdout).putStr outcome.out
  (← IO.getStderr).putStr outcome.err
  return outcome.ending.status

def main (args : List String) : IO UInt32 :=
  match Request.read? args with
  | some request => runRequest request
  | none => do
    (← IO.getStderr).putStr "error: generate, check or validate is expected, with its files\n"
    return 2
