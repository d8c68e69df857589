import CustomFunctions.Review.DuplicateTable

/-!
# Clashing claims

Two functions clash if their ids differ at most in letter case or if their names are the same. A
table reports a conflict for exactly those keys of a function that one of its claims holds.
-/

namespace CustomFunctions

namespace Claim

/-- The ids agree up to letter case. -/
def SameId (a b : Claim) : Prop :=
  Text.lowerCase a.id = Text.lowerCase b.id

/-- The names agree as written. -/
def SameName (a b : Claim) : Prop :=
  a.name = b.name

/-- The two functions cannot both be kept. -/
def Clashes (a b : Claim) : Prop :=
  a.SameId b ∨ a.SameName b

instance : DecidableRel SameId := fun a b =>
  inferInstanceAs (Decidable (Text.lowerCase a.id = Text.lowerCase b.id))

instance : DecidableRel SameName := fun a b => inferInstanceAs (Decidable (a.name = b.name))

instance : DecidableRel Clashes := fun a b =>
  inferInstanceAs (Decidable (a.SameId b ∨ a.SameName b))

theorem Clashes.refl (a : Claim) : a.Clashes a :=
  .inl rfl

end Claim

namespace DuplicateTable

theorem idOwner?_eq_none (table : DuplicateTable) (c : Claim) :
    table.idOwner? c.id = none ↔ ∀ k ∈ table.claims, ¬ k.SameId c := by
  simp [idOwner?, List.find?_eq_none, Claim.SameId]

theorem nameOwner?_eq_none (table : DuplicateTable) (c : Claim) :
    table.nameOwner? c.name = none ↔ ∀ k ∈ table.claims, ¬ k.SameName c := by
  simp [nameOwner?, List.find?_eq_none, Claim.SameName]

/-- A function is free of conflicts exactly if no claim of the table clashes with it. -/
theorem conflicts_eq_nil (table : DuplicateTable) (c : Claim) :
    table.conflicts c.id c.name = [] ↔ ∀ k ∈ table.claims, ¬ k.Clashes c := by
  rw [conflicts, List.append_eq_nil_iff, Option.toList_eq_nil_iff, Option.toList_eq_nil_iff,
    Option.map_eq_none_iff, Option.map_eq_none_iff, idOwner?_eq_none, nameOwner?_eq_none]
  constructor
  · rintro ⟨hid, hname⟩ k hk (h | h)
    · exact hid k hk h
    · exact hname k hk h
  · intro h
    exact ⟨fun k hk hid => h k hk (.inl hid), fun k hk hname => h k hk (.inr hname)⟩

end DuplicateTable

end CustomFunctions
