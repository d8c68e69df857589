import CustomFunctions.CustomEnum.Basic
import CustomFunctions.Declaration
import CustomFunctions.Diagnostic
import CustomFunctions.Doc.TagSet
import CustomFunctions.Doc.TypeBlock
import CustomFunctions.Identifier

/-!
# The registry of custom enums

Every enum declaration with the tag `@customenum` is registered, in order, as a valid enum or as an
invalid one. A look-up finds the first declaration of a name.

## Main definitions

- `EnumProblem` — the ways to break the rules for custom enums
- `EnumRegistry.scan` — the registry of a list of declarations, with the diagnostics
- `EnumRegistry.find?` — the entry that a type name stands for
-/

namespace CustomFunctions

/-- A way to break the rules for custom enums. -/
inductive EnumProblem where
  | duplicate (name : String)
  | invalidName (name : String)
  | unsupportedType (written : String)
  | noMembers (name : String)
  | booleanMember (member : String)
  | noConstant (member : String)
  | mixedValues (name : String)
  | otherBase (name : String) (declared actual : BaseType)
deriving DecidableEq, Inhabited

/-- A registered enum. An invalid one is kept with the first of its problems. -/
inductive RegisteredEnum where
  | valid (desc : CustomEnum)
  | invalid (name : String) (reason : String)
deriving DecidableEq, Inhabited

/-- The registered enums of one source file, in order of declaration. -/
structure EnumRegistry where
  entries : List RegisteredEnum
deriving DecidableEq, Inhabited

namespace EnumProblem

/-- The problem in words. -/
def message : EnumProblem → String
  | duplicate name => s!"Duplicate custom enum name \"{name}\""
  | invalidName name =>
    s!"Invalid custom enum name \"{name}\": names must start with a letter, contain only "
      ++ "letters, digits or '_' and be at most 128 characters"
  | unsupportedType written =>
    s!"Unsupported custom enum type \"{written}\": only \"string\" and \"number\" are allowed"
  | noMembers name => s!"Custom enum \"{name}\" has no members"
  | booleanMember member =>
    s!"Member \"{member}\" has a boolean value; custom enum values must be strings or numbers"
  | noConstant member => s!"Member \"{member}\" has no constant value"
  | mixedValues name => s!"Custom enum \"{name}\" mixes string and number values"
  | otherBase name declared actual =>
    s!"Custom enum \"{name}\" is declared as {declared.name} but its values are {actual.name}s"

end EnumProblem

namespace RegisteredEnum

def name : RegisteredEnum → String
  | valid desc => desc.name
  | invalid name _ => name

/-- The enum, if it is valid. -/
def valid? : RegisteredEnum → Option CustomEnum
  | valid desc => some desc
  | invalid _ _ => none

end RegisteredEnum

namespace EnumRegistry

def empty : EnumRegistry := ⟨[]⟩

/-- Is a name that differs at most in letter case registered? -/
def claims (registry : EnumRegistry) (name : String) : Bool :=
  registry.entries.any fun entry => Text.lowerCase entry.name = Text.lowerCase name

/-- The entry that a name stands for. Of several names that differ only in letter case the first one
declared hides the others. -/
def find? (registry : EnumRegistry) (name : String) : Option RegisteredEnum :=
  (registry.entries.find? fun entry => Text.lowerCase entry.name = Text.lowerCase name).filter
    (·.name = name)

/-- The valid enums in order of declaration. -/
def valid (registry : EnumRegistry) : List CustomEnum :=
  registry.entries.filterMap RegisteredEnum.valid?

end EnumRegistry

namespace EnumDecl

/-- The base type that the type block of the tag declares, if it declares one. -/
def declaredBase (block : Option (List Char)) : Except EnumProblem (Option BaseType) :=
  let written := String.ofList (Text.trim (block.getD []))
  if written = "" then .ok none
  else
    let lowered := Text.lowerCase written
    if lowered = "number" then .ok (some .number)
    else if lowered = "string" then .ok (some .string)
    else .error (.unsupportedType written)

/-- The member with its value, which has to be a constant number or string. -/
def checkMember (decl : EnumMemberDecl) : Except EnumProblem EnumMember :=
  let description := (decl.doc.map fun doc => (TagSet.ofComment doc).description).getD ""
  match decl.value with
  | some (.number x) => .ok ⟨decl.name, .number x, description⟩
  | some (.string s) => .ok ⟨decl.name, .string s, description⟩
  | some (.boolean _) => .error (.booleanMember decl.name)
  | none => .error (.noConstant decl.name)

/-- The problems of the members, in order. -/
def memberProblems (members : List EnumMemberDecl) : List EnumProblem :=
  members.filterMap fun m =>
    match checkMember m with
    | .ok _ => none
    | .error p => some p

/-- The members that have no problem, in order. -/
def goodMembers (members : List EnumMemberDecl) : List EnumMember :=
  members.filterMap fun m =>
    match checkMember m with
    | .ok m => some m
    | .error _ => none

/-- The enum that the declaration and the type block of its tag describe, or the problems of its
type and its members. -/
def describe (decl : EnumDecl) (block : Option (List Char)) (description : String) :
    Except (List EnumProblem) CustomEnum :=
  match declaredBase block with
  | .error p => .error [p]
  | .ok declared =>
    match memberProblems decl.members with
    | p :: ps => .error (p :: ps)
    | [] =>
      let members := goodMembers decl.members
      match members with
      | [] => .error [.noMembers decl.name]
      | first :: _ =>
        let base := first.value.base
        if members.any (·.value.base ≠ base) then .error [.mixedValues decl.name]
        else
          match declared with
          | some other =>
            if other = base then .ok ⟨decl.name, base, description, members⟩
            else .error [.otherBase decl.name other base]
          | none => .ok ⟨decl.name, base, description, members⟩

/-- The problems of the name of the declaration among those already registered. -/
def nameProblems (registry : EnumRegistry) (decl : EnumDecl) : List EnumProblem :=
  (if registry.claims decl.name then [.duplicate decl.name] else [])
    ++ (if Identifier.isEnumName decl.name then [] else [.invalidName decl.name])

/-- The entry for a declaration whose comment has the given tags, and its problems; none without
the tag `@customenum`. -/
def register? (registry : EnumRegistry) (decl : EnumDecl) (tags : TagSet) :
    Option (RegisteredEnum × List EnumProblem) :=
  (tags.first? .customEnum).map fun tag =>
    let problems := nameProblems registry decl
    match describe decl (TypeBlock.split tag.value.toList).1 tags.description, problems with
    | .ok desc, [] => (.valid desc, [])
    | .ok _, p :: ps => (.invalid decl.name p.message, p :: ps)
    | .error more, problems =>
      let problems := problems ++ more
      (.invalid decl.name ((problems.head?.map EnumProblem.message).getD ""), problems)

end EnumDecl

namespace EnumRegistry

/-- The diagnostic for a problem of a declaration in a file. -/
def diagnostic (file : String) (decl : EnumDecl) (problem : EnumProblem) : Diagnostic where
  severity := .error
  subject := .enum
  subjectName := decl.name
  message := problem.message
  line := decl.line
  file := some file

/-- Registers one declaration, if it is tagged. -/
def add (file : String) (registry : EnumRegistry) (decl : EnumDecl) :
    EnumRegistry × List Diagnostic :=
  match decl.doc.bind fun doc => decl.register? registry (TagSet.ofComment doc) with
  | some (entry, problems) =>
    (⟨registry.entries ++ [entry]⟩, problems.map (diagnostic file decl))
  | none => (registry, [])

/-- Registers declarations in order, after those of `registry`. -/
def addAll (file : String) (registry : EnumRegistry) :
    List EnumDecl → EnumRegistry × List Diagnostic
  | [] => (registry, [])
  | decl :: rest =>
    let (next, found) := add file registry decl
    let (last, more) := addAll file next rest
    (last, found ++ more)

/-- The registry of the enums of a source file, and the diagnostics. -/
def scan (unit : SourceUnit) : EnumRegistry × List Diagnostic :=
  addAll unit.displayPath empty unit.enums

end EnumRegistry

end CustomFunctions
