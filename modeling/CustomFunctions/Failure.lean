/-!
# Failures

What ends a run. Problems with a single function or enum are diagnostics and end nothing.
-/

namespace CustomFunctions

/-- What can go wrong with a file. -/
inductive FileFault where
  | notFound
  | notFolder
  | isFolder
  /-- The bytes of the file are no text. -/
  | notText
deriving DecidableEq, Inhabited

def FileFault.message : FileFault → String
  | notFound => "No such file or directory (os error 2)"
  | notFolder => "Not a directory (os error 20)"
  | isFolder => "Is a directory (os error 21)"
  | notText => "stream did not contain valid UTF-8"

/-- What is wrong with a file name pattern. -/
inductive PatternFault where
  /-- More than two asterisks in a row. -/
  | longWildcard
  /-- Two asterisks that are no whole component. -/
  | recursiveWildcard
  /-- A range of characters that is not closed. -/
  | range
deriving DecidableEq, Inhabited

def PatternFault.reason : PatternFault → String
  | longWildcard => "wildcards are either regular `*` or recursive `**`"
  | recursiveWildcard => "recursive wildcards must form a single path component"
  | range => "invalid range pattern"

/-- A fault in a pattern with its position. -/
structure PatternError where
  position : Nat
  fault : PatternFault
deriving DecidableEq, Inhabited

def PatternError.message (e : PatternError) : String :=
  s!"Pattern syntax error near position {e.position}: {e.fault.reason}"

/-- What ends a run. -/
inductive Failure where
  | file (fault : FileFault)
  /-- A text is no JSON, or not of the expected shape. -/
  | json
  | unsupportedLanguage (extension : String)
  | syntaxError (path : String) (line : Nat)
  | pattern (error : PatternError)
  | noInputs
  /-- A document does not match its schema. -/
  | schema (violations : List String)
  /-- A product does not fit into 64 bits. The program does not survive this one. -/
  | overflow
deriving DecidableEq, Inhabited

namespace Failure

def message : Failure → String
  | file fault => "I/O error: " ++ fault.message
  | json => "JSON error: the text has another form"
  | unsupportedLanguage extension => "Unsupported source file extension: " ++ extension
  | syntaxError path line => s!"Failed to parse {path}: syntax error at line {line}"
  | pattern error => "Invalid glob pattern: " ++ error.message
  | noInputs => "No input files matched"
  | schema violations => "Metadata does not match schema: " ++ "\n".intercalate violations
  | overflow => "attempt to multiply with overflow"

/-- The message of the failure that this one is about. -/
def cause? : Failure → Option String
  | file fault => some fault.message
  | pattern error => some error.message
  | _ => none

end Failure

end CustomFunctions
