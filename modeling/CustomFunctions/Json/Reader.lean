import CustomFunctions.Json.Basic
import CustomFunctions.Json.Token

/-!
# Reading JSON

The tokens of a text are taken in one by one by a machine whose stack holds the arrays and objects
that are still open. What it builds is the value as written, a `Raw` value; `Raw.value?` gives the
value that stands for, within the limits of the format: numbers in range, strings of whole
characters, and at most 127 levels of nesting.
-/

namespace CustomFunctions.Json

/-- A JSON value as it is written. -/
inductive Raw where
  | null
  | bool (b : Bool)
  | number (literal : NumberLiteral)
  | string (parts : List Quoted.Part)
  | array (items : List Raw)
  | object (fields : List (List Quoted.Part × Raw))
deriving Inhabited

/-- An array or object that is still open, its parts last one first. An object has the key whose
value is being read. -/
inductive Frame where
  | array (before : List Raw)
  | object (before : List (List Quoted.Part × Raw)) (key : List Quoted.Part)

/-- What the machine waits for. -/
inductive ReadState where
  /-- A value must come. -/
  | value (stack : List Frame)
  /-- A value or the end of an array must come. -/
  | firstItem (stack : List Frame)
  /-- A key or the end of an object must come. -/
  | firstKey (stack : List Frame)
  /-- A key must come. -/
  | key (before : List (List Quoted.Part × Raw)) (stack : List Frame)
  /-- The colon behind a key must come. -/
  | colon (before : List (List Quoted.Part × Raw)) (key : List Quoted.Part) (stack : List Frame)
  /-- A value has just ended. -/
  | ended (v : Raw) (stack : List Frame)

namespace ReadState

/-- Takes in the first token of a value. -/
def startValue (stack : List Frame) : Token → Option ReadState
  | .null => some (.ended .null stack)
  | .bool b => some (.ended (.bool b) stack)
  | .number literal => some (.ended (.number literal) stack)
  | .string parts => some (.ended (.string parts) stack)
  | .openBracket => some (.firstItem stack)
  | .openBrace => some (.firstKey stack)
  | _ => none

/-- Takes in one token. -/
def step : ReadState → Token → Option ReadState
  | .value stack, t => startValue stack t
  | .firstItem stack, .closeBracket => some (.ended (.array []) stack)
  | .firstItem stack, t => startValue (.array [] :: stack) t
  | .firstKey stack, .closeBrace => some (.ended (.object []) stack)
  | .firstKey stack, .string k => some (.colon [] k stack)
  | .key before stack, .string k => some (.colon before k stack)
  | .colon before k stack, .colon => some (.value (.object before k :: stack))
  | .ended v (.array before :: stack), .comma => some (.value (.array (v :: before) :: stack))
  | .ended v (.array before :: stack), .closeBracket =>
    some (.ended (.array (v :: before).reverse) stack)
  | .ended v (.object before k :: stack), .comma => some (.key ((k, v) :: before) stack)
  | .ended v (.object before k :: stack), .closeBrace =>
    some (.ended (.object ((k, v) :: before).reverse) stack)
  | _, _ => none

end ReadState

/-- The value that a text is written as; none if the text is no JSON. -/
def Raw.read? (s : List Char) : Option Raw := do
  let tokens ← Token.scan? s
  match ← tokens.foldlM ReadState.step (.value []) with
  | .ended v [] => some v
  | _ => none

namespace Raw

mutual

/-- The number of levels of nesting. -/
def depth : Raw → Nat
  | .array items => depthItems items + 1
  | .object fields => depthFields fields + 1
  | _ => 0

/-- The greatest depth among the items of an array. -/
def depthItems : List Raw → Nat
  | [] => 0
  | v :: rest => max (depth v) (depthItems rest)

/-- The greatest depth among the fields of an object. -/
def depthFields : List (List Quoted.Part × Raw) → Nat
  | [] => 0
  | (_, v) :: rest => max (depth v) (depthFields rest)

end

mutual

/-- The value, whatever its depth. -/
def decode? : Raw → Option Json
  | .null => some .null
  | .bool b => some (.bool b)
  | .number literal => literal.value?
  | .string parts => (Quoted.decode? parts).map fun s => .string (String.ofList s)
  | .array items => (decodeItems? items).map .array
  | .object fields => (decodeFields? fields).map .object

/-- The items of an array. -/
def decodeItems? : List Raw → Option (List Json)
  | [] => some []
  | v :: rest => do
    let v ← decode? v
    let rest ← decodeItems? rest
    return v :: rest

/-- The fields of an object. -/
def decodeFields? : List (List Quoted.Part × Raw) → Option (List (String × Json))
  | [] => some []
  | (k, v) :: rest => do
    let k ← Quoted.decode? k
    let v ← decode? v
    let rest ← decodeFields? rest
    return (String.ofList k, v) :: rest

end

/-- The deepest nesting that is read. -/
def maxDepth : Nat := 127

/-- The value that stands written, within the limits of the format. -/
def value? (v : Raw) : Option Json :=
  if v.depth ≤ maxDepth then v.decode? else none

end Raw

/-- The value that a text stands for; none if the text is no JSON or beyond the limits. -/
def read? (s : String) : Option Json :=
  (Raw.read? s.toList).bind Raw.value?

end CustomFunctions.Json
