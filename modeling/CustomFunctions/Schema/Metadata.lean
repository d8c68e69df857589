import CustomFunctions.Document.Basic
import CustomFunctions.Failure
import CustomFunctions.Json.Reader
import CustomFunctions.Schema.Basic

/-!
# The schema of the metadata document

The schema that the host publishes for the document, and the check of texts and documents against
it.
-/

namespace CustomFunctions

namespace Schema

/-- The form of the ids and names of functions. -/
def functionIdForm : TextForm where
  expression := "^[A-Za-z_][A-Za-z0-9_.]\x7b0,127\x7d$"
  accepts := Identifier.isFunctionId

/-- The form of the names of enums. -/
def enumNameForm : TextForm where
  expression := "^[A-Za-z][A-Za-z0-9_]\x7b0,127\x7d$"
  accepts := Identifier.isEnumName

def anyText : Schema := text .any

def functionId : Schema := text (.form functionIdForm)

def dimensionality : Schema := text (.oneOf ["scalar", "matrix"])

def valueType : Schema := text (.oneOf ["any", "boolean", "number", "string"])

def cellValueType : Schema :=
  text (.oneOf ["cellvalue", "arraycellvalue", "booleancellvalue", "doublecellvalue",
    "entitycellvalue", "errorcellvalue", "formattednumbercellvalue", "linkedentitycellvalue",
    "localimagecellvalue", "stringcellvalue", "valuetypenotavailablecellvalue",
    "webimagecellvalue"])

def parameter : Schema :=
  object
    [("name", text .nonempty), ("description", anyText), ("type", valueType),
      ("cellValueType", cellValueType), ("customEnumId", anyText),
      ("dimensionality", dimensionality), ("optional", boolean), ("repeating", boolean)]
    ["name", "type"]

def result : Schema :=
  object [("type", valueType), ("dimensionality", dimensionality), ("customEnumId", anyText)]
    ["type"]

def options : Schema :=
  object
    (["volatile", "stream", "cancelable", "requiresAddress", "requiresParameterAddresses",
      "requiresStreamAddress", "requiresStreamParameterAddresses", "supportSync",
      "capturesCallingObject", "excludeFromAutoComplete", "linkedEntityLoadService",
      "linkedEntityDataProvider", "action"].map fun k => (k, boolean))
    []

def function : Schema :=
  object
    [("id", functionId), ("name", functionId), ("description", anyText), ("helpUrl", anyText),
      ("parameters", array parameter false), ("result", result), ("options", options)]
    ["id", "name", "parameters", "result", "options"]

def enumValue : Schema :=
  object [("name", anyText), ("value", numberOrText), ("tooltip", anyText)] ["name", "value"]

def enum : Schema :=
  object
    [("id", text (.form enumNameForm)), ("type", text (.oneOf ["number", "string"])),
      ("values", array enumValue true)]
    ["id", "type", "values"]

/-- The schema of the metadata document. -/
def metadata : Schema :=
  object
    [("allowCustomDataForDataTypeAny", boolean), ("allowErrorForDataTypeAny", boolean),
      ("functions", array function false), ("enums", array enum false)]
    ["functions"]

/-- The violations of a value as a metadata document. -/
def metadataViolations (v : Json) : List String :=
  (violations metadata v.sorted).map Violation.text

/-- The failure that a value is no metadata document. -/
def check (v : Json) : Except Failure Unit :=
  match metadataViolations v with
  | [] => .ok ()
  | found => .error (.schema found)

/-- The failure that a text is no metadata document. -/
def checkText (s : String) : Except Failure Unit :=
  match Json.read? s with
  | some v => check v
  | none => .error .json

end Schema

/-- The failure that a document does not match the schema. -/
def Document.check (d : Document) : Except Failure Unit :=
  Schema.check d.toJson

end CustomFunctions
