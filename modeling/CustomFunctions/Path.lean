import CustomFunctions.Declaration
import CustomFunctions.Text.Casing
import CustomFunctions.Text.Lines

/-!
# Paths

A path is a text whose components stand between slashes. Components that are empty or a single point
do not count, and two points stand for the folder above.
-/

namespace CustomFunctions

namespace Path

/-- The component that stands for the folder above. -/
def up : List Char := ['.', '.']

/-- The components of a path. -/
def components (path : List Char) : List (List Char) :=
  (Text.splitOn '/' path).filter fun c => c ≠ [] && c ≠ ['.']

/-- Does the path begin at the root of all folders? -/
def isAbsolute (path : List Char) : Bool :=
  path.head? = some '/'

/-- Does the form of the path tell that it leads to a folder? -/
def endsInFolder (path : List Char) : Bool :=
  let last := (Text.splitOn '/' path).getLast?.getD []
  last = [] || last = ['.'] || last = up

/-- The last component, unless it stands for the folder above. -/
def fileName? (path : List Char) : Option (List Char) :=
  (components path).getLast?.filter (· ≠ up)

/-- What stands behind the last point of a file name. A point at its start does not count. -/
def extension? (path : List Char) : Option (List Char) :=
  (fileName? path).bind fun name =>
    match (Text.splitOn '.' name).reverse with
    | last :: before :: rest => if before = [] ∧ rest = [] then none else some last
    | _ => none

/-- The path of an entry of a folder. -/
def join (folder name : List Char) : List Char :=
  if folder = [] ∨ folder.getLast? = some '/' then folder ++ name else folder ++ '/' :: name

/-- The extension in small letters; empty if there is none. -/
def plainExtension (path : String) : String :=
  String.ofList (Text.lower ((extension? path.toList).getD []))

end Path

/-- The dialect of the file at a path, by its extension. -/
def Language.ofPath? (path : String) : Option Language :=
  let extension := Path.plainExtension path
  if ["ts", "mts", "cts"].contains extension then some .typeScript
  else if ["js", "mjs", "cjs"].contains extension then some .javaScript
  else none

end CustomFunctions
