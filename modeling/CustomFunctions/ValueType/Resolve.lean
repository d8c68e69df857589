import CustomFunctions.CustomEnum.Registry
import CustomFunctions.TypeExpr.Printer
import CustomFunctions.ValueType.Basic

/-!
# Resolving type expressions

The value type that a type expression stands for, given the custom enums of the file. What cannot be
resolved is unsupported, with a reason; what is really of several types is `any`.

## Main definitions

- `Position` — whether a type belongs to a parameter or to a result
- `ValueType.resolve` — the value type of an expression
- `ValueType.ofHints` — the value type of a function that declares none
-/

namespace CustomFunctions

/-- Where a type stands. Rich cell values are told apart only in parameters, and promises are
unwrapped only in results. -/
inductive Position where
  | parameter
  | result
deriving DecidableEq, Inhabited

namespace ValueType

/-- The most dimensions that an array may have. -/
def maxDimensions : Nat := 2

def notSupported (written : String) : ValueType :=
  .unsupported s!"type \"{written}\" is not supported"

/-- The type of a literal. -/
def ofLiteral : LiteralKind → ValueType
  | .boolean => .boolean
  | .number => .number
  | .string => .string

/-- The type that a word of the language stands for. -/
def ofKeyword? (name : String) : Option ValueType :=
  if name = "number" ∨ name = "Number" then some .number
  else if name = "string" ∨ name = "String" then some .string
  else if name = "boolean" ∨ name = "Boolean" then some .boolean
  else if name = "any" ∨ name = "unknown" then some .any
  else if name = "object" ∨ name = "Object" then some .object
  else if name = "Array" then some (.array .any 1)
  else if name = "void" ∨ name = "undefined" ∨ name = "null" ∨ name = "never" then
    some (notSupported name)
  else none

/-- The type of a registered enum. -/
def ofEnum (name : String) : Option RegisteredEnum → ValueType
  | some (.valid desc) => .enum desc.name desc.base
  | some (.invalid _ _) => .unsupported s!"custom enum \"{name}\" is invalid"
  | none => notSupported name

/-- The type that a name stands for: a word of the language, an invocation, a rich cell value or a
custom enum, in this order. -/
def ofName (registry : EnumRegistry) (position : Position) (name : String) : ValueType :=
  match ofKeyword? name with
  | some type => type
  | none =>
    match InvocationKind.ofTypeName? name with
    | some kind => .invocation kind
    | none =>
      match CellValueKind.ofTypeName? name with
      | some kind => if position = .parameter then .cellValue kind else .any
      | none => ofEnum name (registry.find? name)

/-- The array type of a depth for an expression whose innermost element has been resolved. -/
def ofArray (element : TypeExpr) (depth : Nat) (resolved : ValueType) : ValueType :=
  if resolved.isUnsupported then resolved
  else if resolved.isScalar then .array resolved depth
  else .unsupported s!"\"{element.text}\" is not a valid array element type"

/-- Is the expression the name of a value that is left out of unions? -/
def isNullish (e : TypeExpr) : Bool :=
  e.name? = some "null" || e.name? = some "undefined"

/-- The type of a union whose members, except for missing values, have been resolved. -/
def ofUnion (resolved : List ValueType) : ValueType :=
  match resolved with
  | [] => .unsupported "union contains only null or undefined"
  | first :: rest =>
    match (first :: rest).find? (·.invocationKind?.isSome) with
    | some bad => .unsupported s!"{bad.text} cannot be part of a union"
    | none =>
      match (first :: rest).find? isUnsupported with
      | some bad => bad
      | none => if rest.all (· = first) then first else .any

end ValueType

namespace ValueType

mutual

/-- The value type of an expression at a position. -/
def resolve (registry : EnumRegistry) (position : Position) (e : TypeExpr) : ValueType :=
  match _ : e.element? with
  | some _ =>
    if e.arrayDepth ≤ maxDimensions then
      ofArray e.core.1 e.arrayDepth (resolve registry position e.core.1)
    else
      .unsupported (s!"\"{e.text}\" has {e.arrayDepth} dimensions; "
        ++ s!"at most {maxDimensions} are supported")
  | none =>
    match e with
    | .named name => ofName registry position name
    | .generic name [inner] =>
      if name = "Promise" then
        match position with
        | .result => resolve registry .result inner
        | .parameter => .unsupported "promise parameters are not supported"
      else if InvocationKind.ofTypeName? name = some .streaming then
        .invocationOf .streaming (resolve registry .result inner)
      else notSupported (TypeExpr.text (.generic name [inner]))
    | .generic name args => notSupported (TypeExpr.text (.generic name args))
    | .array element => resolve registry position element
    | .union members => ofUnion (resolveMembers registry position members)
    | .tuple members =>
      .unsupported s!"tuple type \"{TypeExpr.text (.tuple members)}\" is not supported"
    | .literal kind => ofLiteral kind
    | .object => .object
    | .function => .unsupported "function types are not supported"
    | .variadic inner => resolve registry position inner
    | .optional inner => resolve registry position inner
    | .invalid written =>
      if written = "" then .unsupported "empty type annotation" else notSupported written
termination_by sizeOf e
decreasing_by
  · exact TypeExpr.sizeOf_core ‹_›
  · exact TypeExpr.sizeOf_argument _ _
  · exact TypeExpr.sizeOf_argument _ _
  · exact TypeExpr.sizeOf_element rfl
  · exact TypeExpr.sizeOf_members _
  · exact TypeExpr.sizeOf_variadic _
  · exact TypeExpr.sizeOf_optional _

/-- The value types of the members of a union that do not stand for a missing value. -/
def resolveMembers (registry : EnumRegistry) (position : Position) (members : List TypeExpr) :
    List ValueType :=
  match members with
  | [] => []
  | e :: rest =>
    if isNullish e then resolveMembers registry position rest
    else resolve registry position e :: resolveMembers registry position rest
termination_by sizeOf members
decreasing_by
  · exact TypeExpr.sizeOf_tail _ _
  · exact TypeExpr.sizeOf_head _ _
  · exact TypeExpr.sizeOf_tail _ _

end

/-- The type that the literals in return statements show. Statements without a value do not count;
without a value, or with values of several shapes, the type is `any`. -/
def ofHints (hints : List ReturnHint) : ValueType :=
  match hints.filter (· ≠ .empty) with
  | [] => .any
  | first :: rest =>
    if rest.any (· ≠ first) then .any
    else
      match first with
      | .boolean => .boolean
      | .number => .number
      | .string => .string
      | .array nested => .array .any (if nested then 2 else 1)
      | _ => .any

end ValueType

end CustomFunctions
