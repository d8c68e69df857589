import CustomFunctions.Text.Casing

/-!
# Claimed ids and names

Every accepted function claims its id, in any letter case, and its name, exactly as written. The
first function to claim an id or a name keeps it.
-/

namespace CustomFunctions

/-- What one accepted function claims. -/
structure Claim where
  id : String
  name : String
  /-- The name of the function in the code. -/
  owner : String
deriving DecidableEq, Inhabited

/-- The claims of all accepted functions, first one first. -/
structure DuplicateTable where
  claims : List Claim
deriving DecidableEq, Inhabited

/-- A clash with an accepted function. -/
inductive Conflict where
  | sameId (id owner : String)
  | sameName (name owner : String)
deriving DecidableEq, Inhabited

namespace Conflict

/-- The clash in words. -/
def message : Conflict → String
  | sameId id owner => s!"Duplicate function id \"{id}\" (already used by \"{owner}\")"
  | sameName name owner => s!"Duplicate function name \"{name}\" (already used by \"{owner}\")"

end Conflict

namespace DuplicateTable

def empty : DuplicateTable := ⟨[]⟩

/-- The function that holds an id. -/
def idOwner? (table : DuplicateTable) (id : String) : Option String :=
  (table.claims.find? fun claim => Text.lowerCase claim.id = Text.lowerCase id).map (·.owner)

/-- The function that holds a name. -/
def nameOwner? (table : DuplicateTable) (name : String) : Option String :=
  (table.claims.find? fun claim => claim.name = name).map (·.owner)

/-- The clashes that a function with the given id and name would cause. -/
def conflicts (table : DuplicateTable) (id name : String) : List Conflict :=
  ((table.idOwner? id).map (Conflict.sameId id)).toList
    ++ ((table.nameOwner? name).map (Conflict.sameName name)).toList

/-- Adds the claims of a function. -/
def record (table : DuplicateTable) (claim : Claim) : DuplicateTable :=
  ⟨table.claims ++ [claim]⟩

end DuplicateTable

end CustomFunctions
