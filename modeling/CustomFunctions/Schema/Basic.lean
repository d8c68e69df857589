import CustomFunctions.Json.Writer

/-!
# Schemas

A schema says which JSON values are allowed. Checking a value gives all its violations in a fixed
order: those of the fields of an object, sorted by key, before the object's own, and for each value
first the unexpected fields, then the choice of values, the items, their number, the form of a text,
the missing fields and at last the type.

## Main definitions

- `Schema` — a schema
- `Schema.Violation` — a place in a value and what is wrong there
- `Schema.violations` — the violations of a value
-/

namespace CustomFunctions

/-- A form of texts and the regular expression that it is known by. -/
structure TextForm where
  expression : String
  accepts : String → Bool

/-- What is asked of a text. -/
inductive TextRule where
  | any
  /-- At least one character. -/
  | nonempty
  | oneOf (choices : List String)
  | form (form : TextForm)

/-- A schema. The fields of an object that its schema does not name are not allowed. -/
inductive Schema where
  | boolean
  | numberOrText
  | text (rule : TextRule)
  /-- An array; `nonempty` asks for at least one item. -/
  | array (items : Schema) (nonempty : Bool)
  | object (properties : List (String × Schema)) (required : List String)

namespace Schema

/-- A step from a value into one of its parts. -/
inductive Step where
  | key (k : String)
  | index (i : Nat)
deriving DecidableEq, Inhabited

/-- What is wrong with a value. -/
inductive Fault where
  /-- The object has fields that its schema does not name. -/
  | unexpected (keys : List String)
  | noChoice (value : Json) (choices : List String)
  | tooFewItems (value : Json)
  | tooShort (value : Json)
  | wrongForm (value : Json) (expression : String)
  | missing (key : String)
  | wrongType (value : Json) (type : String)
  | neitherType (value : Json) (types : List String)

/-- A place in a value and what is wrong there. -/
structure Violation where
  path : List Step
  fault : Fault

/-! ## Texts -/

def Step.text : Step → String
  | key k => "/" ++ k
  | index i => s!"/{i}"

/-- Texts in single quotation marks with commas between them. -/
def quotedList (keys : List String) : String :=
  ", ".intercalate (keys.map fun k => "'" ++ k ++ "'")

def Fault.text : Fault → String
  | unexpected keys =>
    "Additional properties are not allowed (" ++ quotedList keys
      ++ (if keys.length = 1 then " was unexpected)" else " were unexpected)")
  | noChoice value choices =>
    value.compact ++ " is not one of " ++ (Json.array (choices.map .string)).compact
  | tooFewItems value => value.compact ++ " has less than 1 item"
  | tooShort value => value.compact ++ " is shorter than 1 character"
  | wrongForm value expression => value.compact ++ " does not match \"" ++ expression ++ "\""
  | missing key => (Json.string key).compact ++ " is a required property"
  | wrongType value type => value.compact ++ " is not of type \"" ++ type ++ "\""
  | neitherType value types =>
    value.compact ++ " is not of types "
      ++ ", ".intercalate (types.map fun type => (Json.string type).compact)

/-- The fault, behind the path to its place unless that is the whole value. -/
def Violation.text (v : Violation) : String :=
  if v.path = [] then v.fault.text
  else String.join (v.path.map Step.text) ++ ": " ++ v.fault.text

/-- The violation of a part as one of the value around it. -/
def Violation.under (step : Step) (v : Violation) : Violation :=
  { v with path := step :: v.path }

/-! ## Checking -/

/-- The fault of a value as a whole, as a list of violations. -/
def here (fault : Fault) (holds : Bool) : List Violation :=
  if holds then [] else [⟨[], fault⟩]

/-- What a text has against its rule. A choice of texts excludes all other values too. -/
def textViolations (rule : TextRule) (v : Json) : List Violation :=
  match rule, v with
  | .oneOf choices, .string s => here (.noChoice v choices) (choices.contains s)
  | .oneOf choices, _ => here (.noChoice v choices) false
  | .nonempty, .string s => here (.tooShort v) (s ≠ "")
  | .form form, .string s => here (.wrongForm v form.expression) (form.accepts s)
  | _, _ => []

/-- Is the value of the type with the given name? -/
def hasType (v : Json) (type : String) : Bool :=
  match v with
  | .null => type = "null"
  | .bool _ => type = "boolean"
  | .int _ => type = "number"
  | .real _ => type = "number"
  | .string _ => type = "string"
  | .array _ => type = "array"
  | .object _ => type = "object"

/-- The violation of a value that is not of the given type. -/
def typeViolations (v : Json) (type : String) : List Violation :=
  here (.wrongType v type) (hasType v type)

/-- The violations of items, each one under its index. -/
def underIndices (found : List (List Violation)) : List Violation :=
  found.zipIdx.flatMap fun (vs, i) => vs.map (Violation.under (.index i))

/-- The keys of fields that a schema does not name. -/
def unexpectedKeys (properties : List (String × Schema)) (fields : List (String × Json)) :
    List String :=
  (fields.map (·.1)).filter fun k => ! (properties.map (·.1)).contains k

/-- The required keys that no field has. -/
def missingKeys (required : List String) (fields : List (String × Json)) : List String :=
  required.filter fun k => ! (fields.map (·.1)).contains k

mutual

/-- The violations of a value whose objects have their fields sorted by key. -/
def violations : Schema → Json → List Violation
  | boolean, v => typeViolations v "boolean"
  | numberOrText, v =>
    here (.neitherType v ["number", "string"]) (hasType v "number" || hasType v "string")
  | text rule, v => textViolations rule v ++ typeViolations v "string"
  | array items nonempty, v =>
    match v with
    | .array values =>
      underIndices (values.map (violations items))
        ++ here (.tooFewItems v) (! nonempty || ! values.isEmpty)
    | _ => typeViolations v "array"
  | object properties required, v =>
    match v with
    | .object fields =>
      fields.flatMap (fun (k, w) => propertyViolations k w properties)
        ++ here (.unexpected (unexpectedKeys properties fields))
          (unexpectedKeys properties fields).isEmpty
        ++ (missingKeys required fields).map fun k => ⟨[], .missing k⟩
    | _ => typeViolations v "object"

/-- The violations of the value of a field, if its key is named. -/
def propertyViolations (k : String) (v : Json) : List (String × Schema) → List Violation
  | [] => []
  | (key, schema) :: rest =>
    if key = k then (violations schema v).map (Violation.under (.key k))
    else propertyViolations k v rest

end

end Schema

end CustomFunctions
