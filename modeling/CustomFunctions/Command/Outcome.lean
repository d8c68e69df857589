import CustomFunctions.Files.Sources

/-!
# Outcomes

What a command leaves behind: messages, files, and how it ended. A command that cannot go on ends
with the outcome so far.
-/

namespace CustomFunctions

/-- How a command ends. -/
inductive Ending where
  | success
  /-- The command fails and says why. -/
  | failure
  /-- The program breaks off. -/
  | crash
deriving DecidableEq, Inhabited

/-- The exit status that tells the ending. -/
def Ending.status : Ending → UInt32
  | success => 0
  | failure => 1
  | crash => 101

/-- What a command leaves behind. -/
structure Outcome where
  workspace : Workspace
  /-- The text on the standard output. -/
  out : String := ""
  /-- The text on the standard error output. -/
  err : String := ""
  ending : Ending := .success
deriving Inhabited

/-- A command on its way: an outcome that ends it, or what it goes on with. -/
abbrev Course := Except Outcome

namespace Outcome

/-- The outcome of a command that has come to an end in one way or the other. -/
def ofCourse : Course Outcome → Outcome
  | .ok o => o
  | .error o => o

/-- Writes a line on the standard output. -/
def say (o : Outcome) (line : String) : Outcome :=
  { o with out := o.out ++ line ++ "\n" }

/-- Writes a text on the standard error output. -/
def complain (o : Outcome) (text : String) : Outcome :=
  { o with err := o.err ++ text }

/-- The command fails with a message of its own. -/
def refuse (o : Outcome) (message : String) : Outcome :=
  { o.complain ("✗ " ++ message ++ "\n") with ending := .failure }

/-- The command fails because of a failure in its work. -/
def stop (o : Outcome) (message : String) (cause? : Option String) : Outcome :=
  let more :=
    match cause? with
    | some cause => "\nCaused by:\n    " ++ cause ++ "\n"
    | none => ""
  { o.complain ("Error: " ++ message ++ "\n" ++ more) with ending := .failure }

/-- The program breaks off with no more than a message. -/
def crash (o : Outcome) (message : String) : Outcome :=
  { o.complain (message ++ "\n") with ending := .crash }

/-- Goes on with a result, or ends the command because there is none. -/
def attempt {α : Type} (o : Outcome) : Except Failure α → Course α
  | .ok a => .ok a
  | .error .overflow => .error (o.crash Failure.overflow.message)
  | .error e => .error (o.stop e.message e.cause?)

/-- Goes on with the result of work on a file, or ends the command because there is none. -/
def attemptFile {α : Type} (o : Outcome) : Except FileFault α → Course α
  | .ok a => .ok a
  | .error fault => .error (o.stop fault.message none)

/-- Writes a diagnostic on the standard error output. -/
def showDiagnostic (o : Outcome) (d : Diagnostic) : Outcome :=
  let mark :=
    match d.severity with
    | .error => "✗ "
    | .warning => "⚠ "
  o.complain (mark ++ d.text ++ "\n")

/-- Writes diagnostics on the standard error output. -/
def showDiagnostics (o : Outcome) (ds : List Diagnostic) : Outcome :=
  ds.foldl showDiagnostic o

end Outcome

end CustomFunctions
