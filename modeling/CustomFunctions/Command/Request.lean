/-!
# Requests

What a command line asks for.

An option with a value has it in the next argument, or behind an equals sign, or, for an option of
one letter, right behind the letter. Letters of several options may stand together behind one
hyphen. An option is given once at most, and its value is not empty and does not begin with a
hyphen. Behind two hyphens no argument is an option.

## Main definitions

- `Request` — what is asked for
- `Request.read?` — the request of a command line
-/

namespace CustomFunctions

/-- The work that is asked for. -/
inductive Work where
  /-- Generate the document from source files. -/
  | generate (inputs : List String) (output code : Option String)
  /-- Compare the document with what the source files give. -/
  | check (inputs : List String) (against : String)
  /-- Check a document against its schema. -/
  | validate (file : String)
deriving DecidableEq, Inhabited

/-- What a command line asks for. -/
structure Request where
  /-- The path of the configuration. -/
  config : Option String
  work : Work
deriving DecidableEq, Inhabited

namespace Request

/-- The name of a kind of work. -/
inductive WorkName where
  | generate
  | check
  | validate
deriving DecidableEq

/-- An option with a value. -/
inductive Key where
  | config
  | output
  | code
  | against
deriving DecidableEq

/-- The arguments that have been read. -/
structure Arguments where
  work : Option WorkName := none
  verbose : Bool := false
  values : List (Key × String) := []
  inputs : List String := []

def workName? (s : String) : Option WorkName :=
  [("generate", .generate), ("check", .check), ("validate", .validate)].lookup s

/-- The option with the given name, among those of the work that is asked for. -/
def longKey? (work : Option WorkName) (name : List Char) : Option Key :=
  if name = "config".toList then some .config
  else if name = "output".toList ∧ work = some .generate then some .output
  else if name = "code".toList ∧ work = some .generate then some .code
  else if name = "against".toList ∧ work = some .check then some .against
  else none

/-- The option with the given letter, among those of the work that is asked for. -/
def shortKey? (work : Option WorkName) (letter : Char) : Option Key :=
  if letter = 'c' then some .config
  else if letter = 'o' ∧ work = some .generate then some .output
  else none

namespace Arguments

/-- The arguments with the value of an option, which must be new. -/
def setValue (a : Arguments) (key : Key) (value : List Char) : Option Arguments :=
  if value = [] ∨ (a.values.lookup key).isSome then none
  else some { a with values := (key, String.ofList value) :: a.values }

/-- The arguments with the flag for more messages, which must be new. -/
def setVerbose (a : Arguments) : Option Arguments :=
  if a.verbose then none else some { a with verbose := true }

/-- The arguments with one that is no option: first the work, then what it is done on. -/
def addPlain (a : Arguments) (s : String) : Option Arguments :=
  match a.work with
  | none => (workName? s).map fun name => { a with work := some name }
  | some _ => if s = "" then none else some { a with inputs := a.inputs ++ [s] }

/-- The arguments with options of one letter, and the option whose value is still to come. -/
def addLetters (a : Arguments) : List Char → Option (Arguments × Option Key)
  | [] => some (a, none)
  | 'v' :: rest => a.setVerbose.bind fun a => a.addLetters rest
  | letter :: rest =>
    (shortKey? a.work letter).bind fun key =>
      match rest with
      | [] => some (a, some key)
      | '=' :: value => (a.setValue key value).map fun a => (a, none)
      | value => (a.setValue key value).map fun a => (a, none)

/-- The arguments with an option that has a name, and the option whose value is still to come. -/
def addLong (a : Arguments) (text : List Char) : Option (Arguments × Option Key) :=
  if text = "verbose".toList then a.setVerbose.map fun a => (a, none)
  else
    (longKey? a.work (text.takeWhile (· ≠ '='))).bind fun key =>
      match text.dropWhile (· ≠ '=') with
      | [] => some (a, some key)
      | _ :: value => (a.setValue key value).map fun a => (a, none)

/-- The arguments with one more, and the option whose value is still to come. -/
def add (a : Arguments) (s : String) : Option (Arguments × Option Key) :=
  match s.toList with
  | '-' :: '-' :: text => a.addLong text
  | '-' :: c :: rest => a.addLetters (c :: rest)
  | _ => (a.addPlain s).map fun a => (a, none)

/-- Does the argument look like an option? -/
def isOption (s : String) : Bool :=
  match s.toList with
  | '-' :: _ :: _ => true
  | _ => false

/-- Reads arguments; `key` is the option whose value comes first. -/
def read (a : Arguments) (key : Option Key) : List String → Option Arguments
  | [] => if key.isSome then none else some a
  | s :: rest =>
    match key with
    | some key => if isOption s then none else (a.setValue key s.toList).bind (·.read none rest)
    | none =>
      if s = "--" then rest.foldlM addPlain a
      else (a.add s).bind fun (a, key) => a.read key rest

/-- The work that the arguments ask for. -/
def toWork? (a : Arguments) : Option Work :=
  match a.work, a.inputs with
  | some .generate, input :: more =>
    some (.generate (input :: more) (a.values.lookup .output) (a.values.lookup .code))
  | some .check, input :: more =>
    some (.check (input :: more) ((a.values.lookup .against).getD "functions.json"))
  | some .validate, [file] => some (.validate file)
  | _, _ => none

end Arguments

/-- The request of a command line; none if it is none. -/
def read? (args : List String) : Option Request := do
  let a ← Arguments.read {} none args
  return { config := a.values.lookup .config, work := ← a.toWork? }

end Request

end CustomFunctions
