import CustomFunctions.Json.Reader

/-!
# Records in JSON

A record with known fields is written as an object or, in the order of its fields, as an array. In
an object fields of other names do not count, whatever their values are; in an array the last fields
may be missing.
-/

namespace CustomFunctions.Json.Raw

/-- The text of a string. -/
def text? : Raw → Option String
  | .string parts => (Quoted.decode? parts).map String.ofList
  | _ => none

/-- The truth value. -/
def bool? : Raw → Option Bool
  | .bool b => some b
  | _ => none

/-- The natural of at most sixty-four bits that is written without a sign, a point or an
exponent. -/
def word? : Raw → Option UInt64
  | .number literal =>
    if literal.negative || literal.fraction.isSome || literal.exponent.isSome then none
    else
      let n := Digits.natOf literal.integer
      if n ≤ NumberLiteral.wordMax then some (UInt64.ofNat n) else none
  | _ => none

/-- The texts of the strings in an array. -/
def texts? : Raw → Option (List String)
  | .array items => items.mapM text?
  | _ => none

/-- The fields of an object with their names. -/
def namedFields? (fields : List (List Quoted.Part × Raw)) : Option (List (String × Raw)) :=
  fields.mapM fun (key, v) => (Quoted.decode? key).map fun name => (String.ofList name, v)

/-- The fields of a record whose fields have the given names. -/
def recordFields? (names : List String) : Raw → Option (List (String × Raw))
  | .array items => if items.length ≤ names.length then some (names.zip items) else none
  | .object fields => do
    let known := (← namedFields? fields).filter fun (name, _) => names.contains name
    if (known.map (·.1)).Nodup then some known else none
  | _ => none

/-- The value of a field of a record, or the default if the field is missing. -/
def field? {α : Type} (fields : List (String × Raw)) (name : String) (default : α)
    (decode : Raw → Option α) : Option α :=
  match fields.lookup name with
  | some v => decode v
  | none => some default

/-- One of several words, written as a string or as the name of an object's only field, whose value
is null. -/
def wordOf? : Raw → Option String
  | .string parts => (Quoted.decode? parts).map String.ofList
  | .object [(name, .null)] => (Quoted.decode? name).map String.ofList
  | _ => none

end CustomFunctions.Json.Raw
