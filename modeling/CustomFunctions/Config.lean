import CustomFunctions.Document.Generation
import CustomFunctions.Json.Fields

/-!
# The configuration

The settings of a run and their defaults, and the file that they are kept in. Every setting may be
missing in the file.

## Main definitions

- `Config` — the settings
- `Config.maxFileSize?` — the limit on source files that the settings stand for
- `Config.read?` — the settings that a text stands for
- `Config.text` — the text of a file with the settings
-/

namespace CustomFunctions

/-- Where the output goes. -/
structure OutputPaths where
  metadata : String := "functions.json"
  /-- The registration code is not written if there is no path for it. -/
  code : Option String := none
deriving DecidableEq, Inhabited

/-- Does a run fail because of warnings? -/
inductive Strictness where
  | permissive
  | strict
deriving DecidableEq, Inhabited

/-- How errors are treated. -/
structure ErrorHandling where
  strictness : Strictness := .permissive
  /-- With more errors than this no output is written. -/
  maxErrors : UInt64 := 100
deriving DecidableEq, Inhabited

/-- The limits on source files. -/
structure Limits where
  /-- Files of more than so many units of 1024 · 1024 bytes are skipped. -/
  maxFileSizeMb : UInt64 := 10
deriving DecidableEq, Inhabited

/-- The settings of a run. -/
structure Config where
  /-- The patterns for the files of a folder, one of which a file must match. -/
  included : List String :=
    ["**/*.ts", "**/*.mts", "**/*.cts", "**/*.js", "**/*.mjs", "**/*.cjs"]
  /-- The patterns for the files of a folder, none of which a file may match. -/
  excluded : List String :=
    ["**/node_modules/**", "**/dist/**", "**/build/**", "**/coverage/**", "**/.git/**",
      "**/*.d.ts", "**/*.test.ts", "**/*.test.js"]
  output : OutputPaths := {}
  errorHandling : ErrorHandling := {}
  metadata : DocumentFlags := {}
  limits : Limits := {}
  /-- Is the document checked against its schema before it is written? -/
  validateOutput : Bool := false
deriving DecidableEq, Inhabited

namespace Strictness

def name : Strictness → String
  | permissive => "permissive"
  | strict => "strict"

def ofName? (s : String) : Option Strictness :=
  [permissive, strict].find? (·.name = s)

end Strictness

/-- The product of two numbers in arithmetic that checks for overflow: none if it does not fit into
64 bits. -/
def checkedProduct? (m n : UInt64) : Option UInt64 :=
  if m.toNat * n.toNat < UInt64.size then some (m * n) else none

namespace Config

/-- The file that the settings are kept in. -/
def fileName : String := ".cfmeta.config.json"

def isStrict (c : Config) : Bool :=
  c.errorHandling.strictness = .strict

/-- The greatest size of a source file in bytes; none if it does not fit into 64 bits. -/
def maxFileSize? (c : Config) : Option UInt64 := do
  checkedProduct? (← checkedProduct? c.limits.maxFileSizeMb 1024) 1024

/-! ## Writing -/

def outputJson (o : OutputPaths) : Json :=
  .object ([("metadata", .string o.metadata)] ++ optionalField "code" o.code)

def errorHandlingJson (e : ErrorHandling) : Json :=
  .object [("strictness", .string e.strictness.name), ("maxErrors", .int e.maxErrors.toNat)]

def metadataJson (m : DocumentFlags) : Json :=
  .object [("allowCustomDataForDataTypeAny", .bool m.allowCustomDataForDataTypeAny),
    ("allowErrorForDataTypeAny", .bool m.allowErrorForDataTypeAny)]

def limitsJson (l : Limits) : Json :=
  .object [("maxFileSizeMb", .int l.maxFileSizeMb.toNat)]

def toJson (c : Config) : Json :=
  .object [
    ("include", .array (c.included.map .string)),
    ("exclude", .array (c.excluded.map .string)),
    ("output", outputJson c.output),
    ("errorHandling", errorHandlingJson c.errorHandling),
    ("metadata", metadataJson c.metadata),
    ("limits", limitsJson c.limits),
    ("validateOutput", .bool c.validateOutput)]

/-- The text of a file with the settings. -/
def text (c : Config) : String :=
  c.toJson.pretty

/-! ## Reading -/

open Json.Raw

/-- The text of a setting that may be absent. -/
def optionalText? : Json.Raw → Option (Option String)
  | .null => some none
  | v => (text? v).map some

def ofOutput? (v : Json.Raw) : Option OutputPaths := do
  let fields ← recordFields? ["metadata", "code"] v
  let metadata ← field? fields "metadata" "functions.json" text?
  let code ← field? fields "code" none optionalText?
  return { metadata, code }

def ofStrictness? (v : Json.Raw) : Option Strictness :=
  (wordOf? v).bind Strictness.ofName?

def ofErrorHandling? (v : Json.Raw) : Option ErrorHandling := do
  let fields ← recordFields? ["strictness", "maxErrors"] v
  let strictness ← field? fields "strictness" .permissive ofStrictness?
  let maxErrors ← field? fields "maxErrors" 100 word?
  return { strictness, maxErrors }

def ofMetadata? (v : Json.Raw) : Option DocumentFlags := do
  let fields ← recordFields? ["allowCustomDataForDataTypeAny", "allowErrorForDataTypeAny"] v
  let allowCustomDataForDataTypeAny ← field? fields "allowCustomDataForDataTypeAny" false bool?
  let allowErrorForDataTypeAny ← field? fields "allowErrorForDataTypeAny" false bool?
  return { allowCustomDataForDataTypeAny, allowErrorForDataTypeAny }

def ofLimits? (v : Json.Raw) : Option Limits := do
  let fields ← recordFields? ["maxFileSizeMb"] v
  let maxFileSizeMb ← field? fields "maxFileSizeMb" 10 word?
  return { maxFileSizeMb }

def ofRaw? (v : Json.Raw) : Option Config := do
  let fields ← recordFields?
    ["include", "exclude", "output", "errorHandling", "metadata", "limits", "validateOutput"] v
  let default : Config := {}
  let included ← field? fields "include" default.included texts?
  let excluded ← field? fields "exclude" default.excluded texts?
  let output ← field? fields "output" default.output ofOutput?
  let errorHandling ← field? fields "errorHandling" default.errorHandling ofErrorHandling?
  let metadata ← field? fields "metadata" default.metadata ofMetadata?
  let limits ← field? fields "limits" default.limits ofLimits?
  let validateOutput ← field? fields "validateOutput" default.validateOutput bool?
  return { included, excluded, output, errorHandling, metadata, limits, validateOutput }

/-- The settings that a text stands for; none if it is no JSON or a setting has another form. -/
def read? (s : String) : Option Config :=
  (Json.Raw.read? s.toList).bind ofRaw?

end Config

end CustomFunctions
