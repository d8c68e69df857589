import CustomFunctions.Identifier
import CustomFunctions.Review.DuplicateTable
import CustomFunctions.Signature.Basic
import CustomFunctions.TypeExpr.Printer

/-!
# The rules for custom functions

Each rule lists its violations in a signature. All rules are applied to every signature, so that
authors see all problems at once.

## Main definitions

- `Violation` — the ways to break the rules
- `Signature.violations` — all violations of a signature, in the order in which they are reported
-/

namespace CustomFunctions

/-- A way to break the rules for custom functions. -/
inductive Violation where
  | duplicate (conflict : Conflict)
  | invalidId (id : String)
  | invalidName (name : String)
  | unsupportedParameter (name reason : String)
  | unsupportedResult (reason : String)
  | exclusive (first second : TagKind)
  | severalInvocations
  | invocationNotLast (kind : InvocationKind) (name : String)
  | missingInvocation (tag : TagKind) (expected : InvocationKind)
  | streamReturns (written : String)
  | repeatingNotLast (name : String)
  | requiredAfterOptional (name optional : String)
deriving DecidableEq, Inhabited

namespace Violation

/-- What ids and names may consist of. -/
def identifierRule : String :=
  "start with a letter or underscore and may contain letters, digits, underscores and periods, "
    ++ "up to 128 characters"

/-- The violation in words. -/
def message : Violation → String
  | duplicate conflict => conflict.message
  | invalidId id => s!"Invalid function id \"{id}\": ids {identifierRule}"
  | invalidName name => s!"Invalid function name \"{name}\": names {identifierRule}"
  | unsupportedParameter name reason => s!"Unsupported type for parameter \"{name}\": {reason}"
  | unsupportedResult reason => s!"Unsupported result type: {reason}"
  | exclusive first second => s!"{first.display} cannot be combined with {second.display}"
  | severalInvocations => "Only one invocation parameter is allowed"
  | invocationNotLast kind name =>
    s!"{kind.typeName} parameter \"{name}\" must be the last parameter"
  | missingInvocation tag expected =>
    s!"{tag.display}: missing invocation parameter (expected {expected.typeName} as the last "
      ++ "parameter)"
  | streamReturns written => s!"Streaming functions must return void, found \"{written}\""
  | repeatingNotLast name => s!"Repeating parameter \"{name}\" must be the last parameter"
  | requiredAfterOptional name optional =>
    s!"Required parameter \"{name}\" cannot follow optional parameter \"{optional}\""

end Violation

namespace Signature

/-- The pairs of tags that may not stand together on one function. -/
def exclusivePairs : List (TagKind × TagKind) :=
  [(.supportSync, .streaming),
    (.supportSync, .volatile),
    (.linkedEntityDataProvider, .capturesCallingObject),
    (.linkedEntityDataProvider, .excludeFromAutoComplete),
    (.linkedEntityDataProvider, .requiresAddress),
    (.linkedEntityDataProvider, .requiresParameterAddresses),
    (.linkedEntityDataProvider, .streaming),
    (.linkedEntityDataProvider, .volatile),
    (.linkedEntityLoadService, .capturesCallingObject),
    (.linkedEntityLoadService, .excludeFromAutoComplete),
    (.linkedEntityLoadService, .requiresAddress),
    (.linkedEntityLoadService, .requiresParameterAddresses),
    (.linkedEntityLoadService, .streaming),
    (.linkedEntityLoadService, .volatile)]

/-- The id and the name have to be identifiers of the host. -/
def identifierViolations (f : Signature) : List Violation :=
  (if Identifier.isFunctionId f.id then [] else [.invalidId f.id])
    ++ (if Identifier.isFunctionId f.name then [] else [.invalidName f.name])

/-- The types of visible parameters and of the result have to be supported. What an invocation
delivers is the result and is looked at there. -/
def typeViolations (f : Signature) : List Violation :=
  (f.visible.filterMap fun p => p.type.unsupportedReason?.map (.unsupportedParameter p.name))
    ++ (f.result.unsupportedReason?.map .unsupportedResult).toList

/-- Exclusive tags may not stand together. -/
def exclusionViolations (f : Signature) : List Violation :=
  (exclusivePairs.filter fun (first, second) => f.options.isSet first && f.options.isSet second).map
    fun (first, second) => .exclusive first second

/-- There may be one invocation parameter, and it has to be the last parameter. -/
def invocationViolations (f : Signature) : List Violation :=
  (if 1 < f.invocations.length then [.severalInvocations] else [])
    ++ (match f.invocations with
      | (position, kind) :: _ =>
        if position = f.parameters.length - 1 then []
        else [.invocationNotLast kind ((f.parameters[position]?.map (·.name)).getD "")]
      | [] => [])

/-- The tags that need an invocation parameter, whether the first invocation parameter is of a kind
that serves the tag, and the kind that is asked for otherwise. -/
def invocationNeeds (f : Signature) : List (TagKind × Bool × InvocationKind) :=
  let first := f.invocations.head?.map (·.2)
  let streaming := first = some .streaming
  let addressed := if f.options.stream then streaming else first.isSome
  let addressKind := if f.options.stream then .streaming else .plain
  [(.streaming, streaming, .streaming),
    (.cancelable, first = some .cancelable || streaming, .cancelable),
    (.requiresAddress, addressed, addressKind),
    (.requiresParameterAddresses, addressed, addressKind),
    (.requiresStreamAddress, streaming, .streaming),
    (.requiresStreamParameterAddresses, streaming, .streaming),
    (.supportSync, first = some .plain, .plain)]

/-- A tag that needs an invocation parameter has to find one of the right kind. -/
def needViolations (f : Signature) : List Violation :=
  f.invocationNeeds.filterMap fun (tag, served, expected) =>
    if f.options.isSet tag && ! served then some (.missingInvocation tag expected) else none

/-- Is the type `void`, or a promise of it? -/
def isVoid : TypeExpr → Bool
  | .named name => name = "void"
  | .generic name [inner] => name = "Promise" && isVoid inner
  | _ => false

/-- A streaming function has nothing to return. -/
def returnViolations (f : Signature) : List Violation :=
  if f.options.stream then
    match f.declaredReturn with
    | some e => if isVoid e then [] else [.streamReturns e.text]
    | none => []
  else []

/-- The first repeating parameter that is not the last one. -/
def earlyRepeating? : List Parameter → Option Parameter
  | p :: q :: rest => if p.repeating then some p else earlyRepeating? (q :: rest)
  | _ => none

/-- The required parameters behind an optional one, which is the first optional one so far. -/
def lateRequired (firstOptional : Option String) : List Parameter → List Violation
  | [] => []
  | p :: rest =>
    if p.optional then lateRequired (firstOptional.or (some p.name)) rest
    else
      match firstOptional with
      | some optional =>
        (if p.repeating then [] else [.requiredAfterOptional p.name optional])
          ++ lateRequired firstOptional rest
      | none => lateRequired none rest

/-- Among the visible parameters a repeating one has to be the last, and behind an optional one a
required one may not stand. -/
def orderViolations (f : Signature) : List Violation :=
  ((earlyRepeating? f.visible).map fun p => .repeatingNotLast p.name).toList
    ++ lateRequired none f.visible

/-- All violations, given what the functions accepted before have claimed. -/
def violations (f : Signature) (accepted : DuplicateTable) : List Violation :=
  (accepted.conflicts f.id f.name).map .duplicate
    ++ f.identifierViolations
    ++ f.typeViolations
    ++ f.exclusionViolations
    ++ f.invocationViolations
    ++ f.needViolations
    ++ f.returnViolations
    ++ f.orderViolations

end Signature

end CustomFunctions
