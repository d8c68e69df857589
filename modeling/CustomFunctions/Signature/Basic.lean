import CustomFunctions.Signature.Options
import CustomFunctions.TypeExpr.Basic
import CustomFunctions.ValueType.Basic

/-!
# Signatures

A custom function as its code and its comment describe it together, with all types resolved.
-/

namespace CustomFunctions

/-- A parameter of a custom function. -/
structure Parameter where
  name : String
  type : ValueType
  description : String
  optional : Bool
  /-- May be given any number of times. -/
  repeating : Bool
  /-- The kind of the invocation object that the host passes here, if it passes one. -/
  invocation? : Option InvocationKind := type.invocationKind?
  line : Nat
deriving DecidableEq, Inhabited

/-- A custom function. -/
structure Signature where
  id : String
  name : String
  /-- The name of the function in the code. -/
  codeName : String
  description : String
  helpUrl : Option String
  /-- All parameters, also those that the host passes. -/
  parameters : List Parameter
  result : ValueType
  options : FunctionOptions
  /-- The return type as written in the code. -/
  declaredReturn : Option TypeExpr
  line : Nat
deriving Inhabited

namespace Parameter

/-- Does a spreadsheet user see the parameter? -/
def isVisible (p : Parameter) : Bool :=
  p.invocation?.isNone

end Parameter

namespace Signature

/-- The parameters that a spreadsheet user sees. -/
def visible (f : Signature) : List Parameter :=
  f.parameters.filter Parameter.isVisible

/-- The invocation parameters of a list, each with its position counted from `start`. -/
def invocationsFrom (start : Nat) : List Parameter → List (Nat × InvocationKind)
  | [] => []
  | p :: rest =>
    match p.invocation? with
    | some kind => (start, kind) :: invocationsFrom (start + 1) rest
    | none => invocationsFrom (start + 1) rest

/-- The positions and kinds of the invocation parameters. -/
def invocations (f : Signature) : List (Nat × InvocationKind) :=
  invocationsFrom 0 f.parameters

end Signature

end CustomFunctions
