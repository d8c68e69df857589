import CustomFunctions.Document.Generation
import CustomFunctions.Proofs.DuplicateTable
import CustomFunctions.Proofs.FirstWins

/-!
# Merging generations

Merging offers the functions and the enums of all generations in order and keeps the first ones of
those that clash. The ledgers of both kinds of offers determine the merged document, and the errors
that are added, each for a key that a kept function holds already.

## Main definitions

- `Offer`, `EnumOffer` — a function or an enum of one of the generations
- `Generation.functionRows`, `Generation.enumRows` — the ledgers of all offers
- `Generation.merge_eq` — the merged generation in terms of the ledgers
-/

namespace CustomFunctions

open FirstWins

/-- A function that one of several generations offers. -/
structure Offer where
  /-- The position of the generation. -/
  source : Nat
  file : Option String
  entry : FunctionEntry
  association : Association

/-- An enum that one of several generations offers. -/
structure EnumOffer where
  /-- The position of the generation. -/
  source : Nat
  file : Option String
  entry : EnumEntry

namespace Offer

/-- What the function claims once it is kept. -/
def claim (o : Offer) : Claim :=
  ⟨o.entry.id, o.entry.name, o.association.functionName⟩

/-- The two functions cannot both be kept. -/
def Clashes (a b : Offer) : Prop :=
  a.claim.Clashes b.claim

instance : DecidableRel Clashes := fun a b =>
  inferInstanceAs (Decidable (a.claim.Clashes b.claim))

/-- The error for an offer whose id is held. -/
def idError (o owner : Offer) : Diagnostic where
  severity := .error
  subject := .function
  subjectName := o.association.functionName
  message := s!"Duplicate function id \"{o.entry.id}\" (already used by \"{owner.association.functionName}\")"
  file := o.file

/-- The error for an offer whose name is held. -/
def nameError (o owner : Offer) : Diagnostic where
  severity := .error
  subject := .function
  subjectName := o.association.functionName
  message :=
    s!"Duplicate function name \"{o.entry.name}\" (already used by \"{owner.association.functionName}\")"
  file := o.file

/-- The errors for a row: one for the id and one for the name, if a rival holds them. -/
def errors (row : Row Offer) : List Diagnostic :=
  ((row.rivals.find? fun k => k.claim.SameId row.offer.claim).map row.offer.idError).toList
    ++ ((row.rivals.find? fun k => k.claim.SameName row.offer.claim).map row.offer.nameError).toList

end Offer

namespace EnumOffer

/-- The ids agree up to letter case. -/
def Clashes (a b : EnumOffer) : Prop :=
  Text.lowerCase a.entry.id = Text.lowerCase b.entry.id

instance : DecidableRel Clashes := fun a b =>
  inferInstanceAs (Decidable (Text.lowerCase a.entry.id = Text.lowerCase b.entry.id))

/-- The error for an offer whose id is held. -/
def error (o : EnumOffer) : Diagnostic where
  severity := .error
  subject := .enum
  subjectName := o.entry.id
  message := s!"Duplicate custom enum name \"{o.entry.id}\""
  file := o.file

/-- The errors for a row: one if the offer is turned away. -/
def errors (row : Row EnumOffer) : List Diagnostic :=
  if row.isKept then [] else [row.offer.error]

end EnumOffer

namespace Generation

/-- The functions that a generation at a position offers. -/
def offers (g : Generation) (source : Nat) : List Offer :=
  (g.document.functions.zip g.associations).map fun (f, a) => ⟨source, g.inputs.head?, f, a⟩

/-- The enums that a generation at a position offers. -/
def enumOffers (g : Generation) (source : Nat) : List EnumOffer :=
  g.document.enums.map fun e => ⟨source, g.inputs.head?, e⟩

/-- The functions that generations offer. -/
def allOffers (gs : List Generation) : List Offer :=
  batches offers gs

/-- The enums that generations offer. -/
def allEnumOffers (gs : List Generation) : List EnumOffer :=
  batches enumOffers gs

/-- What becomes of the functions of all generations. -/
def functionRows (gs : List Generation) : List (Row Offer) :=
  ledger Offer.Clashes [] (allOffers gs)

/-- What becomes of the enums of all generations. -/
def enumRows (gs : List Generation) : List (Row EnumOffer) :=
  ledger EnumOffer.Clashes [] (allEnumOffers gs)

/-- The errors for what the generation at a position offers. -/
def clashErrors (gs : List Generation) (source : Nat) : List Diagnostic :=
  ((functionRows gs).filter (·.offer.source = source)).flatMap Offer.errors
    ++ ((enumRows gs).filter (·.offer.source = source)).flatMap EnumOffer.errors

-- ════════════════════════════════════════════════════════════════════════
-- One offer
-- ════════════════════════════════════════════════════════════════════════

/-- The generation with other functions, and their associations. -/
def withFunctions (g : Generation) (held : List Offer) : Generation :=
  { g with
    document := { g.document with functions := held.map (·.entry) }
    associations := held.map (·.association) }

/-- The generation with other enums. -/
def withEnums (g : Generation) (held : List EnumOffer) : Generation :=
  { g with document := { g.document with enums := held.map (·.entry) } }

/-- The generation with further diagnostics. -/
def report (g : Generation) (ds : List Diagnostic) : Generation :=
  { g with diagnostics := g.diagnostics ++ ds }

theorem claims_withFunctions (g : Generation) (held : List Offer) :
    (g.withFunctions held).claims = ⟨held.map Offer.claim⟩ := by
  simp only [claims, withFunctions, List.zipWith_map, List.zipWith_self]
  rfl

/-- The conflicts of an offer are those that its row shows. -/
theorem conflicts_eq_errors (held : List Offer) (o : Offer) :
    (DuplicateTable.conflicts ⟨held.map Offer.claim⟩ o.entry.id o.entry.name).map
        (fun c => mergeError .function o.association.functionName c.message o.file) =
      Offer.errors (settle Offer.Clashes held o) := by
  have hid := find?_rivals Offer.Clashes held o
    (p := fun k => k.claim.SameId o.claim) fun k hk => .inl (of_decide_eq_true hk)
  have hname := find?_rivals Offer.Clashes held o
    (p := fun k => k.claim.SameName o.claim) fun k hk => .inr (of_decide_eq_true hk)
  have hidError : ∀ found : Option Offer,
      (((found.map Offer.claim).map (·.owner)).map (Conflict.sameId o.entry.id)).toList.map
          (fun c => mergeError .function o.association.functionName c.message o.file) =
        (found.map o.idError).toList := by
    intro found
    cases found <;> rfl
  have hnameError : ∀ found : Option Offer,
      (((found.map Offer.claim).map (·.owner)).map (Conflict.sameName o.entry.name)).toList.map
          (fun c => mergeError .function o.association.functionName c.message o.file) =
        (found.map o.nameError).toList := by
    intro found
    cases found <;> rfl
  rw [DuplicateTable.conflicts, DuplicateTable.idOwner?, DuplicateTable.nameOwner?,
    List.find?_map, List.find?_map, List.map_append, hidError, hnameError]
  exact congrArg₂ (fun a b => (a.map o.idError).toList ++ (b.map o.nameError).toList)
    hid.symm hname.symm

theorem conflicts_eq_nil_iff (held : List Offer) (o : Offer) :
    DuplicateTable.conflicts ⟨held.map Offer.claim⟩ o.entry.id o.entry.name = [] ↔
      (settle Offer.Clashes held o).isKept = true := by
  have h := DuplicateTable.conflicts_eq_nil ⟨held.map Offer.claim⟩ o.claim
  rw [List.forall_mem_map] at h
  rw [settle_isKept]
  exact h

/-- Adding a function settles its offer. -/
theorem addFunction_withFunctions (g : Generation) (held : List Offer) (o : Offer) :
    (g.withFunctions held).addFunction o.file o.entry o.association =
      (g.report (Offer.errors (settle Offer.Clashes held o))).withFunctions
        (held ++ kept [settle Offer.Clashes held o]) := by
  have herrors := conflicts_eq_errors held o
  have hkept := conflicts_eq_nil_iff held o
  rw [addFunction, claims_withFunctions, ← herrors, kept_single]
  cases hconflicts : DuplicateTable.conflicts ⟨held.map Offer.claim⟩ o.entry.id o.entry.name with
  | nil =>
    rw [if_pos (hkept.mp hconflicts)]
    simp [withFunctions, report, settle]
  | cons c cs =>
    rw [if_neg (fun h => by simp [hkept.mpr h] at hconflicts), List.append_nil]
    rfl

/-- Adding an enum settles its offer. -/
theorem addEnum_withEnums (g : Generation) (held : List EnumOffer) (o : EnumOffer) :
    (g.withEnums held).addEnum o.file o.entry =
      (g.report (EnumOffer.errors (settle EnumOffer.Clashes held o))).withEnums
        (held ++ kept [settle EnumOffer.Clashes held o]) := by
  have hkept : (settle EnumOffer.Clashes held o).isKept = true ↔ ∀ k ∈ held, ¬ k.Clashes o :=
    settle_isKept EnumOffer.Clashes
  rw [addEnum, kept_single, EnumOffer.errors]
  by_cases h : (settle EnumOffer.Clashes held o).isKept = true
  · rw [if_pos h, if_pos h, if_neg]
    · simp [withEnums, report, settle]
    · simpa [withEnums, EnumOffer.Clashes] using hkept.mp h
  · rw [if_neg h, if_neg h, if_pos, List.append_nil]
    · rfl
    · rw [hkept] at h
      push Not at h
      obtain ⟨k, hk, hclash⟩ := h
      simp only [withEnums, List.any_map, List.any_eq_true]
      exact ⟨k, hk, decide_eq_true hclash⟩

-- ════════════════════════════════════════════════════════════════════════
-- All offers of a generation, and all generations
-- ════════════════════════════════════════════════════════════════════════

theorem report_report (g : Generation) (ds es : List Diagnostic) :
    (g.report ds).report es = g.report (ds ++ es) := by
  simp [report]

theorem foldl_addFunction (g : Generation) (held os : List Offer) :
    os.foldl (fun g o => g.addFunction o.file o.entry o.association) (g.withFunctions held) =
      (g.report ((ledger Offer.Clashes held os).flatMap Offer.errors)).withFunctions
        (held ++ kept (ledger Offer.Clashes held os)) := by
  induction os generalizing g held with
  | nil => simp [ledger, report]
  | cons o os ih =>
    rw [List.foldl_cons, addFunction_withFunctions, ih, report_report, kept_ledger_cons, ledger,
      List.flatMap_cons, List.append_assoc]

theorem foldl_addEnum (g : Generation) (held os : List EnumOffer) :
    os.foldl (fun g o => g.addEnum o.file o.entry) (g.withEnums held) =
      (g.report ((ledger EnumOffer.Clashes held os).flatMap EnumOffer.errors)).withEnums
        (held ++ kept (ledger EnumOffer.Clashes held os)) := by
  induction os generalizing g held with
  | nil => simp [ledger, report]
  | cons o os ih =>
    rw [List.foldl_cons, addEnum_withEnums, ih, report_report, kept_ledger_cons, ledger,
      List.flatMap_cons, List.append_assoc]

theorem source_of_mem_offers (g : Generation) (i : Nat) : ∀ o ∈ g.offers i, o.source = i := by
  intro o ho
  obtain ⟨_, _, rfl⟩ := List.mem_map.mp ho
  rfl

theorem source_of_mem_enumOffers (g : Generation) (i : Nat) :
    ∀ o ∈ g.enumOffers i, o.source = i := by
  intro o ho
  obtain ⟨_, _, rfl⟩ := List.mem_map.mp ho
  rfl

/-- Adding a generation settles all that it offers, first the functions and then the enums. -/
theorem add_eq (g next : Generation) (i : Nat) (held : List Offer) (heldEnums : List EnumOffer)
    (hg : (g.withFunctions held).withEnums heldEnums = g) :
    g.add next =
      (((g.addHeader next).report
        ((ledger Offer.Clashes held (next.offers i)).flatMap Offer.errors
          ++ (ledger EnumOffer.Clashes heldEnums (next.enumOffers i)).flatMap
            EnumOffer.errors)).withFunctions
        (held ++ kept (ledger Offer.Clashes held (next.offers i)))).withEnums
        (heldEnums ++ kept (ledger EnumOffer.Clashes heldEnums (next.enumOffers i))) := by
  have hfunctions : (next.document.functions.zip next.associations).foldl
      (fun g (f, a) => g.addFunction next.inputs.head? f a) (g.addHeader next) =
        (next.offers i).foldl (fun g o => g.addFunction o.file o.entry o.association)
          ((g.addHeader next).withFunctions held) := by
    rw [offers, List.foldl_map, ← hg]
    rfl
  have henums : ∀ g' : Generation, next.document.enums.foldl (addEnum next.inputs.head?) g' =
      (next.enumOffers i).foldl (fun g o => g.addEnum o.file o.entry) g' := by
    intro g'
    rw [enumOffers, List.foldl_map]
  have hheld : ∀ ds fs, ((g.addHeader next).report ds).withFunctions fs =
      (((g.addHeader next).report ds).withFunctions fs).withEnums heldEnums := by
    intro ds fs
    rw [← hg]
    rfl
  rw [add, hfunctions, henums, foldl_addFunction, hheld, foldl_addEnum]
  simp only [withFunctions, withEnums, report, List.append_assoc]

/-- A further generation settles its functions after all others. -/
theorem functionRows_concat (gs : List Generation) (g : Generation) :
    functionRows (gs ++ [g]) =
      functionRows gs ++ ledger Offer.Clashes (kept (functionRows gs)) (g.offers gs.length) :=
  ledger_batches_concat ..

/-- A further generation settles its enums after all others. -/
theorem enumRows_concat (gs : List Generation) (g : Generation) :
    enumRows (gs ++ [g]) =
      enumRows gs ++ ledger EnumOffer.Clashes (kept (enumRows gs)) (g.enumOffers gs.length) :=
  ledger_batches_concat ..

/-- The merged generation: of all that is offered the first ones are kept, and every generation
brings its diagnostics and then the errors for what it offers. -/
theorem merge_eq (gs : List Generation) :
    merge gs =
      { document := {
          allowCustomDataForDataTypeAny := gs.any (·.document.allowCustomDataForDataTypeAny)
          allowErrorForDataTypeAny := gs.any (·.document.allowErrorForDataTypeAny)
          functions := (kept (functionRows gs)).map (·.entry)
          enums := (kept (enumRows gs)).map (·.entry) }
        associations := (kept (functionRows gs)).map (·.association)
        diagnostics := gs.zipIdx.flatMap fun (g, i) => g.diagnostics ++ clashErrors gs i
        inputs := gs.flatMap (·.inputs) } := by
  induction gs using List.reverseRecOn with
  | nil => rfl
  | append_singleton gs g ih =>
    have hmerge : merge (gs ++ [g]) = (merge gs).add g := by
      simp [merge, List.foldl_append]
    have hearlier : ∀ i < gs.length, clashErrors (gs ++ [g]) i = clashErrors gs i := by
      intro i hi
      unfold clashErrors
      congr 2
      · exact filter_batches_of_lt Offer.Clashes source_of_mem_offers gs g hi
      · exact filter_batches_of_lt EnumOffer.Clashes source_of_mem_enumOffers gs g hi
    have hlast : clashErrors (gs ++ [g]) gs.length =
        (ledger Offer.Clashes (kept (functionRows gs)) (g.offers gs.length)).flatMap Offer.errors
          ++ (ledger EnumOffer.Clashes (kept (enumRows gs)) (g.enumOffers gs.length)).flatMap
            EnumOffer.errors := by
      unfold clashErrors
      congr 2
      · exact filter_batches_last Offer.Clashes source_of_mem_offers gs g
      · exact filter_batches_last EnumOffer.Clashes source_of_mem_enumOffers gs g
    have hdiagnostics : (gs.zipIdx.flatMap fun (h, i) =>
          h.diagnostics ++ clashErrors (gs ++ [g]) i) =
        gs.zipIdx.flatMap fun (h, i) => h.diagnostics ++ clashErrors gs i := by
      apply List.flatMap_congr
      rintro ⟨h, i⟩ hmem
      have hi : i < gs.length := by
        have := List.snd_lt_of_mem_zipIdx hmem
        omega
      exact congrArg (h.diagnostics ++ ·) (hearlier i hi)
    rw [hmerge, add_eq (merge gs) g gs.length (kept (functionRows gs)) (kept (enumRows gs))
      (by rw [ih]; rfl), ih]
    simp only [withFunctions, withEnums, report, addHeader, functionRows_concat, enumRows_concat,
      kept_append, List.map_append, List.any_append, List.flatMap_append, List.zipIdx_append, hdiagnostics,
      List.append_assoc]
    simp [hlast]

theorem merge_functions (gs : List Generation) :
    (merge gs).document.functions = (kept (functionRows gs)).map (·.entry) := by
  rw [merge_eq]

theorem merge_enums (gs : List Generation) :
    (merge gs).document.enums = (kept (enumRows gs)).map (·.entry) := by
  rw [merge_eq]

end Generation

end CustomFunctions
