/-!
# Type expressions

A type as it is written in an annotation or in the type block of a tag. Text that the grammar does
not cover is kept as it stands.
-/

namespace CustomFunctions

/-- The kind of a literal type. -/
inductive LiteralKind where
  | boolean
  | number
  | string
deriving DecidableEq, Inhabited

/-- A type expression. -/
inductive TypeExpr where
  /-- A keyword or a reference, its parts joined by points. -/
  | named (name : String)
  /-- A reference with type arguments. -/
  | generic (name : String) (args : List TypeExpr)
  /-- A type with a pair of square brackets behind it. -/
  | array (element : TypeExpr)
  | union (members : List TypeExpr)
  | tuple (members : List TypeExpr)
  | literal (kind : LiteralKind)
  /-- A type in braces. -/
  | object
  | function
  /-- A type with an ellipsis before it, as tags write repeated parameters. -/
  | variadic (inner : TypeExpr)
  /-- A type with an equals sign behind it, as tags write optional parameters. -/
  | optional (inner : TypeExpr)
  /-- Text that the grammar does not cover. -/
  | invalid (text : String)
deriving Inhabited

namespace TypeExpr

/-- The name of a plain reference. -/
def name? : TypeExpr → Option String
  | .named name => some name
  | _ => none

/-- Does a reference of this name with one argument stand for an array? -/
def isArrayName (name : String) : Bool :=
  name = "Array" || name = "ReadonlyArray"

/-- The element type of an array, in either spelling. -/
def element? : TypeExpr → Option TypeExpr
  | .array element => some element
  | .generic name [element] => if isArrayName name then some element else none
  | _ => none

theorem sizeOf_element {e element : TypeExpr} (h : e.element? = some element) :
    sizeOf element < sizeOf e := by
  unfold element? at h
  split at h
  · grind
  · split at h
    · grind
    · simp at h
  · simp at h

/-- The innermost element of an array, and the number of array levels around it. -/
def core (e : TypeExpr) : TypeExpr × Nat :=
  match _ : e.element? with
  | some element => ((core element).1, (core element).2 + 1)
  | none => (e, 0)
termination_by sizeOf e
decreasing_by all_goals exact sizeOf_element ‹_›

theorem core_of_element {e element : TypeExpr} (h : e.element? = some element) :
    e.core = (element.core.1, element.core.2 + 1) := by
  rw [core]
  split <;> simp_all

theorem core_of_no_element {e : TypeExpr} (h : e.element? = none) : e.core = (e, 0) := by
  rw [core]
  split <;> simp_all

theorem sizeOf_core {e element : TypeExpr} (h : e.element? = some element) :
    sizeOf e.core.1 < sizeOf e := by
  rw [core_of_element h]
  have hlt := sizeOf_element h
  cases he : element.element? with
  | some inner => exact Nat.lt_trans (sizeOf_core he) hlt
  | none => simpa [core_of_no_element he] using hlt
termination_by sizeOf e

theorem sizeOf_head (e : TypeExpr) (rest : List TypeExpr) : sizeOf e < sizeOf (e :: rest) := by
  rw [List.cons.sizeOf_spec]
  omega

theorem sizeOf_tail (e : TypeExpr) (rest : List TypeExpr) : sizeOf rest < sizeOf (e :: rest) := by
  rw [List.cons.sizeOf_spec]
  omega

theorem sizeOf_argument (name : String) (inner : TypeExpr) :
    sizeOf inner < sizeOf (generic name [inner]) := by
  have := sizeOf_head inner []
  rw [generic.sizeOf_spec]
  omega

theorem sizeOf_members (members : List TypeExpr) : sizeOf members < sizeOf (union members) := by
  rw [union.sizeOf_spec]
  omega

theorem sizeOf_variadic (inner : TypeExpr) : sizeOf inner < sizeOf (variadic inner) := by
  rw [variadic.sizeOf_spec]
  omega

theorem sizeOf_optional (inner : TypeExpr) : sizeOf inner < sizeOf (optional inner) := by
  rw [optional.sizeOf_spec]
  omega

/-- The number of array levels around the innermost element. -/
def arrayDepth (e : TypeExpr) : Nat :=
  e.core.2

end TypeExpr

end CustomFunctions
