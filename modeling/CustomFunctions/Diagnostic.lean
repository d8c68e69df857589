import CustomFunctions.Json.Writer

/-!
# Diagnostics

A problem found in one declaration. An error keeps the declaration out of the metadata; a warning
does not.
-/

namespace CustomFunctions

/-- How serious a problem is. -/
inductive Severity where
  | error
  | warning
deriving DecidableEq, Inhabited

/-- What kind of declaration has the problem. -/
inductive Subject where
  | function
  | enum
deriving DecidableEq, Inhabited

/-- A problem of one declaration. -/
structure Diagnostic where
  severity : Severity
  subject : Subject
  /-- The name of the declaration in the code. -/
  subjectName : String
  message : String
  /-- The source line, or zero if it is not known. -/
  line : Nat := 0
  file : Option String := none
deriving DecidableEq, Inhabited

namespace Severity

def name : Severity → String
  | error => "error"
  | warning => "warning"

end Severity

namespace Subject

def name : Subject → String
  | function => "function"
  | enum => "enum"

end Subject

namespace Diagnostic

def isError (d : Diagnostic) : Bool :=
  d.severity = .error

def isWarning (d : Diagnostic) : Bool :=
  d.severity = .warning

/-- The diagnostic with a file, unless it has one. -/
def inFile (d : Diagnostic) (file : String) : Diagnostic :=
  { d with file := some (d.file.getD file) }

/-- The file and the line in front of a diagnostic; the line is shown only with a file. -/
def location (d : Diagnostic) : String :=
  match d.file with
  | none => ""
  | some file => if 0 < d.line then s!"{file}:{d.line}: " else s!"{file}: "

/-- The diagnostic as one line of text. -/
def text (d : Diagnostic) : String :=
  s!"{d.location}{d.severity.name} in {d.subjectName}: {d.message}"

/-- The diagnostic as a JSON value; a line or file that is not known is left out. -/
def toJson (d : Diagnostic) : Json :=
  .object
    ([("severity", .string d.severity.name), ("subject", .string d.subject.name),
      ("subjectName", .string d.subjectName), ("message", .string d.message)]
    ++ (if d.line = 0 then [] else [("line", .int d.line)])
    ++ (match d.file with
      | some file => [("file", .string file)]
      | none => []))

/-- The numbers of errors and of warnings. -/
def tally (ds : List Diagnostic) : Nat × Nat :=
  (ds.countP isError, ds.countP isWarning)

end Diagnostic

end CustomFunctions
