import CustomFunctions.Script.Literal
import CustomFunctions.Script.Parser

/-!
# The declarations of a script

The functions and enums that a script declares at its top level, with their doc comments and the
values of the members of enums.

## Main definitions

- `EnumItem.members` — the members of an enum with their values and comments
- `SourceUnit.ofText` — the declarations of a source text
-/

namespace CustomFunctions

namespace Script

/-- The doc comment that a comment stands for. -/
def Comment.doc (c : Comment) : DocComment :=
  DocComment.ofBlock (String.ofList c.text) c.line

namespace EnumItem

/-- The number behind a number. -/
def successor (x : Binary64) : Binary64 :=
  x.add (Binary64.ofNat 1)

/-- The number that a member without an initial value has behind a member with the given value:
counting goes on behind a number and stops behind anything else. -/
def nextNumber : Option Literal → Option Binary64
  | some (.number x) => some (successor x)
  | _ => none

/-- The value of a member whose number would be `next` if none is written. -/
def value (next : Option Binary64) : Option Tree → Option Literal
  | some tree => tree.constant?
  | none => next.map .number

/-- The members among items, where `doc` is the last doc comment since the member before and `next`
is the number of a member without an initial value. -/
def membersFrom (doc : Option DocComment) (next : Option Binary64) :
    List EnumItem → List EnumMemberDecl
  | [] => []
  | comment c :: rest => membersFrom (if c.isDoc then some c.doc else doc) next rest
  | member name initializer :: rest =>
    { name, value := value next initializer, doc }
      :: membersFrom none (nextNumber (value next initializer)) rest

/-- The members of an enum. The first one has the number zero unless a value is written. -/
def members (items : List EnumItem) : List EnumMemberDecl :=
  membersFrom none (some (Binary64.ofNat 0)) items

end EnumItem

/-- The function that a statement declares. -/
def FunctionStatement.declaration (f : FunctionStatement) (doc : Option DocComment) :
    FunctionDecl where
  name := String.ofList f.name
  doc := doc
  parameters := f.parameters
  returnType? := f.returnType?
  isAsync := f.isAsync
  returnHints := f.body.hints
  line := f.line

/-- The enum that a statement declares. -/
def EnumStatement.declaration (e : EnumStatement) (doc : Option DocComment) : EnumDecl where
  name := String.ofList e.name
  doc := doc
  members := EnumItem.members e.items
  line := e.line

/-- The function that a statement declares, if it declares one. -/
def function? : Option Comment × Statement → Option FunctionDecl
  | (doc, .function f) => some (f.declaration (doc.map Comment.doc))
  | _ => none

/-- The enum that a statement declares, if it declares one. -/
def enum? : Option Comment × Statement → Option EnumDecl
  | (doc, .enumeration e) => some (e.declaration (doc.map Comment.doc))
  | _ => none

end Script

/-- The declarations of a source text, or the line of the first token that cannot continue it. -/
def SourceUnit.ofText (path : String) (language : Language) (text : String) :
    Except Nat SourceUnit :=
  match Script.statements? language text.toList with
  | .ok list =>
    .ok { path, language, functions := list.filterMap Script.function?,
          enums := list.filterMap Script.enum? }
  | .error line => .error line

end CustomFunctions
