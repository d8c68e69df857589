import CustomFunctions.Failure
import CustomFunctions.Path

/-!
# Folders

A folder with its files and the folders in it, and a place among folders from which relative paths
start. The entries of a folder stand in the order of their names, by code points.

## Main definitions

- `Folder` — a folder
- `Folder.setAt` — a folder with an entry at the end of a path
- `Folder.files` — all files in a folder and in the folders in it
- `Workspace` — a tree of folders and a place in it
- `Workspace.entry` — what is found at a path
- `Workspace.write` — the workspace with a file written
-/

namespace CustomFunctions

/-- A folder: one entry after the other. -/
inductive Folder where
  | empty
  | file (name : String) (bytes : ByteArray) (others : Folder)
  | folder (name : String) (contents others : Folder)
deriving Inhabited

/-- What a folder can hold. -/
inductive Entry where
  | file (bytes : ByteArray)
  | folder (contents : Folder)
deriving Inhabited

namespace Entry

/-- The folder with an entry of the given name in front. -/
def before (name : String) (entry : Entry) (others : Folder) : Folder :=
  match entry with
  | file bytes => .file name bytes others
  | folder contents => .folder name contents others

end Entry

namespace Folder

/-- The entry with the given name. -/
def find? (name : String) : Folder → Option Entry
  | empty => none
  | file other bytes others => if other = name then some (.file bytes) else others.find? name
  | folder other contents others =>
    if other = name then some (.folder contents) else others.find? name

/-- Puts an entry at its place among the others, instead of one with the same name. -/
def set (name : String) (entry : Entry) : Folder → Folder
  | empty => entry.before name empty
  | file other bytes others =>
    if name < other then entry.before name (file other bytes others)
    else if name = other then entry.before name others
    else file other bytes (others.set name entry)
  | folder other contents others =>
    if name < other then entry.before name (folder other contents others)
    else if name = other then entry.before name others
    else folder other contents (others.set name entry)

/-- The folder in which the given entry stands at the end of a path of names. Folders on the way are
made where there are none. -/
def setAt (entry : Entry) : List String → Folder → Folder
  | [], root => root
  | [name], root => root.set name entry
  | name :: rest, root =>
    let inner :=
      match root.find? name with
      | some (.folder contents) => contents
      | _ => empty
    root.set name (.folder (inner.setAt entry rest))

/-- The entry at the end of a path of names. -/
def findAt? : List String → Folder → Option Entry
  | [], root => some (.folder root)
  | [name], root => root.find? name
  | name :: rest, root =>
    match root.find? name with
    | some (.folder contents) => contents.findAt? rest
    | _ => none

/-- All files in a folder and in the folders in it, with their paths behind the given one. -/
def files (before : String) : Folder → List (String × ByteArray)
  | empty => []
  | file name bytes others => (before ++ name, bytes) :: others.files before
  | folder name contents others => contents.files (before ++ name ++ "/") ++ others.files before

end Folder

/-- A tree of folders, and the names on the way to the place where relative paths start. -/
structure Workspace where
  root : Folder := .empty
  here : List String := []
deriving Inhabited

namespace Workspace

/-- The folders on the way from the root to a place with the name of each, innermost first. -/
abbrev Trail := List (String × Folder)

/-- Walks on along components. A trail leads to each folder on the way; missing folders are made if
`make` is set. -/
def walk (make : Bool) (root : Folder) (trail : Trail) :
    List (List Char) → Except FileFault (Trail × Entry)
  | [] => .ok (trail, .folder ((trail.head?.map (·.2)).getD root))
  | component :: rest =>
    if component = Path.up then walk make root trail.tail rest
    else
      let name := String.ofList component
      match ((trail.head?.map (·.2)).getD root).find? name with
      | some (.folder contents) => walk make root ((name, contents) :: trail) rest
      | some (.file bytes) => if rest = [] then .ok (trail, .file bytes) else .error .notFolder
      | none => if make then walk make root ((name, .empty) :: trail) rest else .error .notFound

/-- The trail to the place where relative paths start. -/
def hereTrail (w : Workspace) : Trail :=
  match walk true w.root [] (w.here.map String.toList) with
  | .ok (trail, _) => trail
  | .error _ => []

/-- The trail on which the walk along a path starts. -/
def startTrail (w : Workspace) (path : List Char) : Trail :=
  if Path.isAbsolute path then [] else w.hereTrail

/-- What is found at a path. -/
def entry (w : Workspace) (path : String) : Except FileFault Entry := do
  if path = "" then throw .notFound
  let (_, found) ← walk false w.root (w.startTrail path.toList) (Path.components path.toList)
  match found with
  | .file _ => if Path.endsInFolder path.toList then throw .notFolder else return found
  | .folder _ => return found

/-- The text of the file at a path. -/
def text (w : Workspace) (path : String) : Except FileFault String := do
  match ← w.entry path with
  | .folder _ => throw .isFolder
  | .file bytes =>
    match String.fromUTF8? bytes with
    | some s => return s
    | none => throw .notText

/-- The workspace with a folder at the end of the given components, as far as it is not there. -/
def makeFolder (w : Workspace) (path : List Char) (components : List (List Char)) :
    Except FileFault Workspace := do
  let (trail, found) ← walk true w.root (w.startTrail path) components
  match found with
  | .file _ => throw .notFolder
  | .folder contents =>
    return { w with root := w.root.setAt (.folder contents) (trail.reverse.map (·.1)) }

/-- The workspace with a folder behind each of the given components, `before` standing before
them. -/
def makeFolders (w : Workspace) (path : List Char) (before : List (List Char)) :
    List (List Char) → Except FileFault Workspace
  | [] => .ok w
  | component :: rest => do
    let w ← w.makeFolder path (before ++ [component])
    w.makeFolders path (before ++ [component]) rest

/-- The workspace with the folder that the file at a path is to stand in. -/
def makeParent (w : Workspace) (path : String) : Except FileFault Workspace :=
  let parent := (Path.components path.toList).dropLast
  if parent = [] then .ok w
  else
    match walk false w.root (w.startTrail path.toList) parent with
    | .ok _ => .ok w
    | .error _ => w.makeFolders path.toList [] parent

/-- The workspace with a text written to the file at a path. -/
def write (w : Workspace) (path text : String) : Except FileFault Workspace := do
  let components := Path.components path.toList
  let start := w.startTrail path.toList
  if path = "" then throw .notFound
  match components.getLast? with
  | none => throw .isFolder
  | some name =>
    let (trail, parent) ← walk false w.root start components.dropLast
    match parent with
    | .file _ => throw .notFolder
    | .folder contents =>
      match contents.find? (String.ofList name) with
      | some (.folder _) => throw .isFolder
      | some (.file _) => if Path.endsInFolder path.toList then throw .notFolder
      | none => if Path.endsInFolder path.toList then throw .isFolder
      return { w with
        root := w.root.setAt (.file text.toUTF8)
          (trail.reverse.map (·.1) ++ [String.ofList name]) }

/-- The files that are new or have another content than in an earlier workspace, with their paths
from the root. -/
def changes (w earlier : Workspace) : List (String × ByteArray) :=
  let old := earlier.root.files ""
  (w.root.files "").filter fun (path, bytes) => (old.lookup path).map (·.data) ≠ some bytes.data

end Workspace

end CustomFunctions
