import CustomFunctions.Json.Basic
import CustomFunctions.ValueType.Basic

/-!
# Custom enums

An enum whose members a spreadsheet user can pick from, and the registry of the enums of one source
file. A declaration that breaks a rule stays registered as invalid, so that a look-up can tell an
invalid enum from an unknown one.
-/

namespace CustomFunctions

/-- The value of an enum member. -/
inductive EnumValue where
  | number (x : Binary64)
  | string (s : String)
deriving DecidableEq, Inhabited

/-- A member of a custom enum. -/
structure EnumMember where
  name : String
  value : EnumValue
  description : String
deriving DecidableEq, Inhabited

/-- A custom enum that keeps all rules. -/
structure CustomEnum where
  name : String
  base : BaseType
  description : String
  members : List EnumMember
deriving DecidableEq, Inhabited

namespace EnumValue

/-- The type of the value. -/
def base : EnumValue → BaseType
  | number _ => .number
  | string _ => .string

/-- Integers of at least this magnitude are written as binary fractions. -/
def integerLimit : Nat := 9000000000000000

/-- The value as a JSON value. A whole number is written as an integer, and what is no finite number
as `null`. -/
def toJson : EnumValue → Json
  | number x =>
    match x.toInt? with
    | some i => if i.natAbs < integerLimit then .int i else .real x
    | none => if x.isFinite then .real x else .null
  | string s => .string s

end EnumValue

end CustomFunctions
