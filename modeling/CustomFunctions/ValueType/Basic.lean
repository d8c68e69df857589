/-!
# Value types

The types that the host of custom functions knows: what a cell or a range can hold, the members of a
custom enum, the objects that stand for rich cell values, and the invocation objects that the host
itself passes to a function. A type that is none of these is kept with the reason why.

## Main definitions

- `ValueType` — a resolved type
- `ValueType.typeName`, `ValueType.dimensionality`, `ValueType.cellValueType?`,
  `ValueType.customEnumId?` — what the metadata say about a type
- `ValueType.unsupportedReason?` — why a type is refused
-/

namespace CustomFunctions

/-- The type of the values of a custom enum. -/
inductive BaseType where
  | number
  | string
deriving DecidableEq, Inhabited

/-- The kinds of object that the host passes as the last parameter. -/
inductive InvocationKind where
  | plain
  | cancelable
  | streaming
deriving DecidableEq, Inhabited

/-- The objects that stand for rich cell values. -/
inductive CellValueKind where
  | cellValue
  | array
  | boolean
  | double
  | entity
  | error
  | formattedNumber
  | linkedEntity
  | localImage
  | string
  | valueTypeNotAvailable
  | webImage
deriving DecidableEq, Inhabited

/-- How many cells a value fills. -/
inductive Dimensionality where
  | scalar
  | matrix
deriving DecidableEq, Inhabited

/-- A resolved type. -/
inductive ValueType where
  | boolean
  | number
  | string
  | any
  | object
  | enum (name : String) (base : BaseType)
  | cellValue (kind : CellValueKind)
  /-- An array with the given number of dimensions. -/
  | array (element : ValueType) (dimensions : Nat)
  | invocation (kind : InvocationKind)
  /-- An invocation with a type argument, the type of the values that a stream delivers. -/
  | invocationOf (kind : InvocationKind) (result : ValueType)
  | unsupported (reason : String)
deriving DecidableEq, Inhabited

namespace BaseType

/-- The word for the type. -/
def name : BaseType → String
  | number => "number"
  | string => "string"

end BaseType

namespace InvocationKind

/-- The full name of the type of the object. -/
def typeName : InvocationKind → String
  | plain => "CustomFunctions.Invocation"
  | cancelable => "CustomFunctions.CancelableInvocation"
  | streaming => "CustomFunctions.StreamingInvocation"

/-- The kind that a type name stands for, with or without the namespace of the host. -/
def ofTypeName? (name : String) : Option InvocationKind :=
  if name = "Invocation" ∨ name = plain.typeName then some plain
  else if name = "CancelableInvocation" ∨ name = cancelable.typeName then some cancelable
  else if name = "StreamingInvocation" ∨ name = streaming.typeName then some streaming
  else none

end InvocationKind

namespace CellValueKind

/-- Every kind of cell value. -/
def all : List CellValueKind :=
  [cellValue, array, boolean, double, entity, error, formattedNumber, linkedEntity, localImage,
    string, valueTypeNotAvailable, webImage]

/-- The name of the type of the object, without the namespace of the host. -/
def typeName : CellValueKind → String
  | cellValue => "CellValue"
  | array => "ArrayCellValue"
  | boolean => "BooleanCellValue"
  | double => "DoubleCellValue"
  | entity => "EntityCellValue"
  | error => "ErrorCellValue"
  | formattedNumber => "FormattedNumberCellValue"
  | linkedEntity => "LinkedEntityCellValue"
  | localImage => "LocalImageCellValue"
  | string => "StringCellValue"
  | valueTypeNotAvailable => "ValueTypeNotAvailableCellValue"
  | webImage => "WebImageCellValue"

/-- The word by which the metadata name the kind. -/
def name : CellValueKind → String
  | cellValue => "cellvalue"
  | array => "arraycellvalue"
  | boolean => "booleancellvalue"
  | double => "doublecellvalue"
  | entity => "entitycellvalue"
  | error => "errorcellvalue"
  | formattedNumber => "formattednumbercellvalue"
  | linkedEntity => "linkedentitycellvalue"
  | localImage => "localimagecellvalue"
  | string => "stringcellvalue"
  | valueTypeNotAvailable => "valuetypenotavailablecellvalue"
  | webImage => "webimagecellvalue"

/-- The kind that a type name stands for, with or without the namespace of the host. -/
def ofTypeName? (name : String) : Option CellValueKind :=
  all.find? fun kind => name = kind.typeName || name = "Excel." ++ kind.typeName

end CellValueKind

namespace Dimensionality

/-- The word by which the metadata name the dimensionality. -/
def name : Dimensionality → String
  | scalar => "scalar"
  | matrix => "matrix"

end Dimensionality

namespace ValueType

def isUnsupported : ValueType → Bool
  | unsupported _ => true
  | _ => false

/-- The reason why the type, an element of it or its type argument is refused. -/
def unsupportedReason? : ValueType → Option String
  | unsupported reason => some reason
  | array element _ => element.unsupportedReason?
  | invocationOf _ result => result.unsupportedReason?
  | _ => none

/-- The kind of an invocation. -/
def invocationKind? : ValueType → Option InvocationKind
  | invocation kind => some kind
  | invocationOf kind _ => some kind
  | _ => none

/-- May the type be the element of an array? Enums may not. -/
def isScalar : ValueType → Bool
  | array _ _ => false
  | enum _ _ => false
  | invocation _ => false
  | invocationOf _ _ => false
  | unsupported _ => false
  | _ => true

/-- The word by which the metadata name the type. -/
def typeName : ValueType → String
  | boolean => "boolean"
  | number => "number"
  | string => "string"
  | enum _ base => base.name
  | array element _ => element.typeName
  | _ => "any"

/-- An array fills several cells and every other value one. -/
def dimensionality : ValueType → Dimensionality
  | array _ _ => .matrix
  | _ => .scalar

/-- The kind of rich cell value of the type or of its elements. -/
def cellValueType? : ValueType → Option CellValueKind
  | cellValue kind => some kind
  | array element _ => element.cellValueType?
  | _ => none

/-- The name of the custom enum that the type or its element is. -/
def customEnumId? : ValueType → Option String
  | enum name _ => some name
  | array element _ => element.customEnumId?
  | _ => none

/-- The text by which diagnostics show the type. -/
def text : ValueType → String
  | enum name _ => name
  | cellValue kind => kind.name
  | array element dimensions => element.text ++ String.join (List.replicate dimensions "[]")
  | invocation kind => kind.typeName
  | invocationOf kind _ => kind.typeName
  | object => "object"
  | unsupported reason => s!"unsupported ({reason})"
  | boolean => "boolean"
  | number => "number"
  | string => "string"
  | any => "any"

end ValueType

end CustomFunctions
