import CustomFunctions.Declaration
import CustomFunctions.Diagnostic
import CustomFunctions.Doc.ValueTag
import CustomFunctions.Signature.Basic
import CustomFunctions.TypeExpr.Parser
import CustomFunctions.ValueType.Resolve

/-!
# Candidates

A function declaration whose comment has the tag `@customfunction` is a candidate: its signature
together with the problems met while code and comment were put together. A type block in a tag comes
before the type in the code, and a result without either is inferred from the return statements.
The result of a streaming function is what its invocation delivers, whatever else is written.

## Main definitions

- `Candidate.ofDecl?` — the candidate that a declaration makes, if it is tagged
-/

namespace CustomFunctions

/-- A signature that has not been reviewed, with the diagnostics raised so far. -/
structure Candidate where
  signature : Signature
  diagnostics : List Diagnostic
deriving Inhabited

namespace Candidate

/-- A diagnostic about a function declaration at a tag. -/
def tagDiagnostic (severity : Severity) (decl : FunctionDecl) (tag : Tag) (message : String) :
    Diagnostic where
  severity
  subject := .function
  subjectName := decl.name
  message
  line := tag.line

/-- What a parameter tag tells: the tag of a parameter, or a warning. -/
def readParamTag (decl : FunctionDecl) (tag : Tag) : Except Diagnostic ParamTag :=
  match ParamTag.read? tag.value with
  | none => .error (tagDiagnostic .warning decl tag "@param tag has no parameter name")
  | some parsed =>
    if decl.parameters.any (·.name = parsed.name) then .ok parsed
    else
      .error (tagDiagnostic .warning decl tag
        s!"@param \"{parsed.name}\" does not match any parameter")

/-- The parameter tags that name a parameter, in order. -/
def paramTags (decl : FunctionDecl) (tags : TagSet) : List ParamTag :=
  (tags.all .param).filterMap fun tag =>
    match readParamTag decl tag with
    | .ok parsed => some parsed
    | .error _ => none

/-- The warnings about parameter tags, in order. -/
def paramWarnings (decl : FunctionDecl) (tags : TagSet) : List Diagnostic :=
  (tags.all .param).filterMap fun tag =>
    match readParamTag decl tag with
    | .ok _ => none
    | .error d => some d

/-- A type expression without the mark of an optional parameter, and whether it had one. -/
def dropOptional : TypeExpr → TypeExpr × Bool
  | .optional inner => (inner, true)
  | e => (e, false)

/-- The type that a parameter repeats, and whether the expression itself says that it repeats. A
parameter that takes all remaining arguments repeats the element of its array type. -/
def dropRest (rest : Bool) : TypeExpr → TypeExpr × Bool
  | .variadic inner => (inner, true)
  | e => (if rest then e.element?.getD e else e, false)

/-- The parameter that a declaration and its tag, if there is one, describe. -/
def parameter (registry : EnumRegistry) (decl : ParameterDecl) (tag : Option ParamTag) :
    Parameter :=
  let written := (tag.bind (·.typeText)).map TypeExpr.parse
  let optional := decl.optional || decl.hasDefault || tag.any (·.optional)
  let description := (tag.map (·.description)).getD ""
  match written.or decl.type? with
  | none =>
    { name := decl.name, type := .any, description, optional, repeating := decl.rest,
      line := decl.line }
  | some e =>
    let (e, marked) := dropOptional e
    let (e, variadic) := dropRest decl.rest e
    { name := decl.name
      type := ValueType.resolve registry .parameter e
      description
      optional := optional || marked
      repeating := decl.rest || variadic
      line := decl.line }

/-- The parameters of a declaration; the first tag that names a parameter describes it. -/
def parameters (registry : EnumRegistry) (decl : FunctionDecl) (tags : TagSet) : List Parameter :=
  let found := paramTags decl tags
  decl.parameters.map fun p => parameter registry p (found.find? (·.name = p.name))

/-- Does the parameter carry a streaming invocation? -/
def isStreaming (p : Parameter) : Bool :=
  p.invocation? = some .streaming

/-- The flags of the tags, with those that invocation parameters imply. -/
def options (tags : TagSet) (parameters : List Parameter) : FunctionOptions :=
  let written := FunctionOptions.ofTags tags
  let streaming := parameters.any isStreaming
  { written with
    stream := written.stream || streaming
    cancelable := written.cancelable || streaming
      || parameters.any (·.invocation? = some .cancelable) }

/-- The type of the values that a streaming invocation delivers. -/
def delivered : ValueType → ValueType
  | .invocationOf _ result => result
  | _ => .any

/-- The type of the result. -/
def result (registry : EnumRegistry) (decl : FunctionDecl) (tags : TagSet)
    (parameters : List Parameter) : ValueType :=
  match parameters.find? isStreaming with
  | some p => delivered p.type
  | none =>
    let written := (tags.first? .returns).bind fun tag => (ReturnsTag.read tag.value).typeText
    match (written.map TypeExpr.parse).or decl.returnType? with
    | some e => ValueType.resolve registry .result e
    | none => ValueType.ofHints decl.returnHints

/-- A value of several lines as one line, each of its lines without the blanks around it. -/
def joinTrimmed (value : String) : String :=
  String.ofList ((Text.lines value.toList).flatMap Text.trim)

/-- The error for a tag that gives more than an id and a name. -/
def surplusWords (decl : FunctionDecl) (tag : Tag) (words : List (List Char)) : List Diagnostic :=
  if 2 < words.length then
    [tagDiagnostic .error decl tag
      s!"@customfunction accepts at most an id and a name, found {words.length} values"]
  else []

/-- The candidate that a declaration makes, if its comment has the tag `@customfunction`. -/
def ofDecl? (registry : EnumRegistry) (decl : FunctionDecl) : Option Candidate := do
  let doc ← decl.doc
  let tags := TagSet.ofComment doc
  let tag ← tags.first? .customFunction
  let words := Text.words tag.value.toList
  let id := (words[0]?.map String.ofList).getD (Text.upperCase decl.name)
  let parameters := parameters registry decl tags
  return {
    signature := {
      id
      name := (words[1]?.map String.ofList).getD id
      codeName := decl.name
      description := tags.description
      helpUrl := (tags.first? .helpUrl).map fun tag => joinTrimmed tag.value
      parameters
      result := result registry decl tags parameters
      options := options tags parameters
      declaredReturn := decl.returnType?
      line := decl.line }
    diagnostics := surplusWords decl tag words ++ paramWarnings decl tags }

end Candidate

end CustomFunctions
