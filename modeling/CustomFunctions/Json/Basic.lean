import CustomFunctions.Number.Binary64

/-!
# JSON values

A JSON value with numbers of two sorts, integers and binary fractions, and with the fields of an
object in the order in which they are written.
-/

namespace CustomFunctions

/-- A JSON value. -/
inductive Json where
  | null
  | bool (b : Bool)
  | int (i : Int)
  | real (x : Binary64)
  | string (s : String)
  | array (items : List Json)
  | object (fields : List (String × Json))
deriving Inhabited

namespace Json

/-- The value of the last field with the given key. -/
def field? : Json → String → Option Json
  | .object fields, key => fields.reverse.lookup key
  | _, _ => none

/-- Puts a field into a list that is sorted by key, in place of one with the same key. -/
def insertField (key : String) (v : Json) : List (String × Json) → List (String × Json)
  | [] => [(key, v)]
  | (k, w) :: rest =>
    if key < k then (key, v) :: (k, w) :: rest
    else if k = key then (key, v) :: rest
    else (k, w) :: insertField key v rest

mutual

/-- The value with the fields of every object sorted by key, the last of several fields with one key
being kept. -/
def sorted : Json → Json
  | .array items => .array (sortedItems items)
  | .object fields => .object (sortedFields [] fields)
  | v => v

/-- The items of an array, each of them sorted. -/
def sortedItems : List Json → List Json
  | [] => []
  | v :: rest => sorted v :: sortedItems rest

/-- The fields of an object, put one by one among those already sorted. -/
def sortedFields (done : List (String × Json)) : List (String × Json) → List (String × Json)
  | [] => done
  | (k, v) :: rest => sortedFields (insertField k (sorted v) done) rest

end

end Json

end CustomFunctions
