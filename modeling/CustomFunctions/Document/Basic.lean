import CustomFunctions.CustomEnum.Registry
import CustomFunctions.Json.Writer
import CustomFunctions.Signature.Basic

/-!
# The metadata document

The document that the host loads: the accepted functions and the valid enums. Texts that are empty,
flags that are not set and an empty list of enums are left out.

## Main definitions

- `Document` — the document
- `FunctionEntry.ofSignature`, `EnumEntry.ofEnum` — the entries for a function and an enum
- `Document.toJson` — the document as a JSON value
-/

namespace CustomFunctions

/-- A visible parameter in the document. -/
structure ParameterEntry where
  name : String
  description : Option String
  typeName : String
  cellValueType : Option String
  customEnumId : Option String
  dimensionality : Dimensionality
  optional : Bool
  repeating : Bool
deriving DecidableEq, Inhabited

/-- The result of a function in the document. -/
structure ResultEntry where
  typeName : String
  dimensionality : Dimensionality
  customEnumId : Option String
deriving DecidableEq, Inhabited

/-- A function in the document. -/
structure FunctionEntry where
  id : String
  name : String
  description : Option String
  helpUrl : Option String
  parameters : List ParameterEntry
  result : ResultEntry
  options : FunctionOptions
deriving DecidableEq, Inhabited

/-- A member of an enum in the document. -/
structure EnumValueEntry where
  name : String
  value : EnumValue
  tooltip : Option String
deriving DecidableEq, Inhabited

/-- An enum in the document. -/
structure EnumEntry where
  id : String
  base : BaseType
  values : List EnumValueEntry
deriving DecidableEq, Inhabited

/-- The metadata document. -/
structure Document where
  allowCustomDataForDataTypeAny : Bool := false
  allowErrorForDataTypeAny : Bool := false
  functions : List FunctionEntry := []
  enums : List EnumEntry := []
deriving DecidableEq, Inhabited

/-- A text unless it is empty. -/
def nonempty? (s : String) : Option String :=
  if s = "" then none else some s

/-- The field of a text that is written only if there is one. -/
def optionalField (key : String) (value : Option String) : List (String × Json) :=
  (value.map fun s => (key, Json.string s)).toList

namespace ParameterEntry

def ofParameter (p : Parameter) : ParameterEntry where
  name := p.name
  description := nonempty? p.description
  typeName := p.type.typeName
  cellValueType := p.type.cellValueType?.map CellValueKind.name
  customEnumId := p.type.customEnumId?
  dimensionality := p.type.dimensionality
  optional := p.optional
  repeating := p.repeating

def toJson (p : ParameterEntry) : Json :=
  .object
    ([("name", .string p.name)]
    ++ optionalField "description" p.description
    ++ [("type", .string p.typeName)]
    ++ optionalField "cellValueType" p.cellValueType
    ++ optionalField "customEnumId" p.customEnumId
    ++ [("dimensionality", .string p.dimensionality.name), ("optional", .bool p.optional)]
    ++ FunctionOptions.whenSet "repeating" p.repeating)

end ParameterEntry

namespace ResultEntry

def ofType (type : ValueType) : ResultEntry where
  typeName := type.typeName
  dimensionality := type.dimensionality
  customEnumId := type.customEnumId?

/-- The dimensionality of a result is written only for a matrix. -/
def toJson (r : ResultEntry) : Json :=
  .object
    ([("type", .string r.typeName)]
    ++ (if r.dimensionality = .matrix then [("dimensionality", .string r.dimensionality.name)]
      else [])
    ++ optionalField "customEnumId" r.customEnumId)

end ResultEntry

namespace FunctionEntry

def ofSignature (f : Signature) : FunctionEntry where
  id := f.id
  name := f.name
  description := nonempty? f.description
  helpUrl := f.helpUrl.bind nonempty?
  parameters := f.visible.map ParameterEntry.ofParameter
  result := ResultEntry.ofType f.result
  options := f.options

def toJson (f : FunctionEntry) : Json :=
  .object
    ([("id", .string f.id), ("name", .string f.name)]
    ++ optionalField "description" f.description
    ++ optionalField "helpUrl" f.helpUrl
    ++ [("parameters", .array (f.parameters.map ParameterEntry.toJson)),
      ("result", f.result.toJson), ("options", f.options.toJson)])

end FunctionEntry

namespace EnumValueEntry

def ofMember (m : EnumMember) : EnumValueEntry where
  name := m.name
  value := m.value
  tooltip := nonempty? m.description

def toJson (v : EnumValueEntry) : Json :=
  .object
    ([("name", .string v.name), ("value", v.value.toJson)] ++ optionalField "tooltip" v.tooltip)

end EnumValueEntry

namespace EnumEntry

def ofEnum (e : CustomEnum) : EnumEntry where
  id := e.name
  base := e.base
  values := e.members.map EnumValueEntry.ofMember

def toJson (e : EnumEntry) : Json :=
  .object
    [("id", .string e.id), ("type", .string e.base.name),
      ("values", .array (e.values.map EnumValueEntry.toJson))]

end EnumEntry

namespace Document

def toJson (d : Document) : Json :=
  .object
    (FunctionOptions.whenSet "allowCustomDataForDataTypeAny" d.allowCustomDataForDataTypeAny
    ++ FunctionOptions.whenSet "allowErrorForDataTypeAny" d.allowErrorForDataTypeAny
    ++ [("functions", .array (d.functions.map FunctionEntry.toJson))]
    ++ (if d.enums = [] then [] else [("enums", .array (d.enums.map EnumEntry.toJson))]))

/-- The text of the document. -/
def text (d : Document) : String :=
  d.toJson.pretty

end Document

end CustomFunctions
