import CustomFunctions.Proofs.Document.Attempts

/-!
# Accounting for declarations

Every tagged declaration of merged files has an entry in the merged document, or there is an error
with its name and its file. The document holds nothing but these entries, in the order of the
declarations, and there is an error only if some declaration has no entry.

## Main definitions

- `Fate` — a tagged declaration with its entry, if it has one
- `Generation.AccountsFor` — fates that account for all declarations and for the whole document
- `Generation.merge_accountsFor` — the merged generation accounts for the declarations of all files
-/

namespace CustomFunctions

open FirstWins

/-- A tagged declaration of a file with its entry in a document, if it has one. -/
structure Fate (Decl Entry : Type) where
  unit : SourceUnit
  decl : Decl
  kept? : Option Entry

namespace Generation

/-- The fates tell for each tagged declaration of the files what became of it in the generation. -/
structure AccountsFor (g : Generation) (units : List SourceUnit)
    (functions : List (Fate FunctionDecl (FunctionEntry × Association)))
    (enums : List (Fate EnumDecl EnumEntry)) : Prop where
  functions_declared : functions.map (fun f => (f.unit, f.decl)) =
    units.flatMap fun unit => unit.taggedFunctions.map (unit, ·)
  functions_kept : functions.filterMap (·.kept?) = g.document.functions.zip g.associations
  associations_length : g.associations.length = g.document.functions.length
  function_entry : ∀ f ∈ functions, ∀ entry association, f.kept? = some (entry, association) →
    association.functionName = f.decl.name ∧
      ∃ c, Candidate.ofDecl? f.unit.registry f.decl = some c ∧
        entry = .ofSignature c.signature ∧ association = .ofSignature c.signature
  function_reported : ∀ f ∈ functions, f.kept? = none →
    ∃ d ∈ g.diagnostics, d.IsErrorOf .function f.decl.name f.unit.displayPath
  enums_declared : enums.map (fun e => (e.unit, e.decl)) =
    units.flatMap fun unit => unit.taggedEnums.map (unit, ·)
  enums_kept : enums.filterMap (·.kept?) = g.document.enums
  enum_entry : ∀ e ∈ enums, ∀ entry, e.kept? = some entry →
    entry.id = e.decl.name ∧ ∃ desc, e.decl.Describes desc ∧ entry = .ofEnum desc
  enum_reported : ∀ e ∈ enums, e.kept? = none →
    ∃ d ∈ g.diagnostics, d.IsErrorOf .enum e.decl.name e.unit.displayPath
  /-- There are no errors exactly if no declaration is left out. -/
  hasErrors_iff : g.hasErrors = false ↔
    (∀ f ∈ functions, f.kept?.isSome = true) ∧ ∀ e ∈ enums, e.kept?.isSome = true

-- ════════════════════════════════════════════════════════════════════════
-- Errors of a merge
-- ════════════════════════════════════════════════════════════════════════

/-- A merged generation has the diagnostics of its parts and the errors for what is left out. -/
theorem mem_merge_diagnostics (gs : List Generation) (d : Diagnostic) :
    d ∈ (merge gs).diagnostics ↔
      (∃ g ∈ gs, d ∈ g.diagnostics) ∨ (∃ row ∈ functionRows gs, d ∈ Offer.errors row) ∨
        ∃ row ∈ enumRows gs, d ∈ EnumOffer.errors row := by
  rw [merge_eq]
  simp only [clashErrors, List.mem_flatMap, List.mem_append, List.mem_filter, decide_eq_true_eq,
    Prod.exists, List.mem_zipIdx_iff_getElem?]
  constructor
  · rintro ⟨g, i, hg, hd | ⟨row, ⟨hrow, _⟩, hd⟩ | ⟨row, ⟨hrow, _⟩, hd⟩⟩
    · exact .inl ⟨g, List.mem_of_getElem? hg, hd⟩
    · exact .inr (.inl ⟨row, hrow, hd⟩)
    · exact .inr (.inr ⟨row, hrow, hd⟩)
  · rintro (⟨g, hg, hd⟩ | ⟨row, hrow, hd⟩ | ⟨row, hrow, hd⟩)
    · obtain ⟨i, hi, rfl⟩ := List.getElem_of_mem hg
      exact ⟨gs[i], i, List.getElem?_eq_getElem hi, .inl hd⟩
    · have hlt := position_lt source_of_mem_offers (offer_mem_of_mem_ledger _ hrow)
      exact ⟨_, _, List.getElem?_eq_getElem hlt, .inr (.inl ⟨row, ⟨hrow, rfl⟩, hd⟩)⟩
    · have hlt := position_lt source_of_mem_enumOffers (offer_mem_of_mem_ledger _ hrow)
      exact ⟨_, _, List.getElem?_eq_getElem hlt, .inr (.inr ⟨row, ⟨hrow, rfl⟩, hd⟩)⟩

theorem errors_of_kept {row : Row Offer} (h : row.isKept = true) : Offer.errors row = [] := by
  rw [Offer.errors, (Row.isKept_iff row).mp h]
  rfl

/-- The errors of a row are about the function that is offered. -/
theorem errors_isErrorOf {row : Row Offer} {file : String} (hfile : row.offer.file = some file) :
    ∀ d ∈ Offer.errors row,
      d.IsErrorOf .function row.offer.association.functionName file := by
  refine List.forall_mem_append.mpr ⟨fun d hd => ?_, fun d hd => ?_⟩
  · obtain ⟨owner, _, rfl⟩ := Option.map_eq_some_iff.mp (Option.mem_toList.mp hd)
    exact ⟨rfl, rfl, rfl, hfile⟩
  · obtain ⟨owner, _, rfl⟩ := Option.map_eq_some_iff.mp (Option.mem_toList.mp hd)
    exact ⟨rfl, rfl, rfl, hfile⟩

/-- A merge has no errors exactly if its parts have none and nothing is left out. -/
theorem merge_hasErrors_eq_false (gs : List Generation) :
    (merge gs).hasErrors = false ↔
      (∀ g ∈ gs, g.hasErrors = false) ∧ (∀ row ∈ functionRows gs, row.isKept = true) ∧
        ∀ row ∈ enumRows gs, row.isKept = true := by
  simp only [hasErrors_eq_false, mem_merge_diagnostics]
  constructor
  · intro hclean
    refine ⟨fun g hg d hd => hclean d (.inl ⟨g, hg, hd⟩), fun row hrow => ?_, fun row hrow => ?_⟩
    · by_contra hlost
      obtain ⟨d, hd⟩ := List.exists_mem_of_ne_nil _
        (errors_ne_nil hrow (Bool.eq_false_iff.mpr hlost))
      have herror := hclean d (.inr (.inl ⟨row, hrow, hd⟩))
      rcases List.mem_append.mp hd with hd | hd
      · obtain ⟨owner, _, rfl⟩ := Option.map_eq_some_iff.mp (Option.mem_toList.mp hd)
        cases herror
      · obtain ⟨owner, _, rfl⟩ := Option.map_eq_some_iff.mp (Option.mem_toList.mp hd)
        cases herror
    · by_contra hlost
      have herror := hclean row.offer.error
        (.inr (.inr ⟨row, hrow, by rw [EnumOffer.errors, if_neg hlost]; exact List.mem_cons_self⟩))
      cases herror
  · rintro ⟨hparts, hfunctions, henums⟩ d (⟨g, hg, hd⟩ | ⟨row, hrow, hd⟩ | ⟨row, hrow, hd⟩)
    · exact hparts g hg d hd
    · rw [errors_of_kept (hfunctions row hrow)] at hd
      exact absurd hd List.not_mem_nil
    · rw [EnumOffer.errors, if_pos (henums row hrow)] at hd
      exact absurd hd List.not_mem_nil

end Generation

-- ════════════════════════════════════════════════════════════════════════
-- Fates
-- ════════════════════════════════════════════════════════════════════════

namespace Fate

variable {Decl Entry Offered : Type} (clash : Offered → Offered → Prop) [DecidableRel clash]
  (attempts : SourceUnit → Nat → List ((SourceUnit × Decl) × Option Offered))
  (entry : Offered → Entry)

/-- The fates of the declarations of files when the first of clashing offers are kept. -/
def all (units : List SourceUnit) : List (Fate Decl Entry) :=
  (outcomes clash [] (batches attempts units)).map fun o => ⟨o.1.1, o.1.2, o.2.map entry⟩

/-- What becomes of all offers of files. -/
def rows (units : List SourceUnit) : List (Row Offered) :=
  ledger clash [] (batches (fun unit i => (attempts unit i).filterMap (·.2)) units)

theorem all_declared {tagged : SourceUnit → List Decl}
    (h : ∀ unit i, (attempts unit i).map (·.1) = (tagged unit).map (unit, ·))
    (units : List SourceUnit) :
    (all clash attempts entry units).map (fun f => (f.unit, f.decl)) =
      units.flatMap fun unit => (tagged unit).map (unit, ·) := by
  have hbatches : (batches attempts units).map (·.1) =
      units.flatMap fun unit => (tagged unit).map (unit, ·) :=
    map_batches fun unit _ i => h unit i
  rw [← hbatches, ← outcomes_declared clash [], all, List.map_map]
  rfl

theorem all_entries (units : List SourceUnit) :
    (all clash attempts entry units).filterMap (·.kept?) =
      (kept (rows clash attempts units)).map entry := by
  rw [rows, ← batches_filterMap, ← outcomes_offers, List.map_filterMap, all, List.filterMap_map]
  rfl

variable {clash attempts entry}

/-- An entry comes from an offer that the declaration made. -/
theorem exists_offer {units : List SourceUnit} {f : Fate Decl Entry} {e : Entry}
    (hf : f ∈ all clash attempts entry units) (he : f.kept? = some e) :
    ∃ unit ∈ units, ∃ i, ∃ x, ((f.unit, f.decl), some x) ∈ attempts unit i ∧ entry x = e := by
  obtain ⟨⟨d, offer⟩, ho, rfl⟩ := List.mem_map.mp hf
  obtain ⟨x, rfl, hx⟩ := Option.map_eq_some_iff.mp he
  obtain ⟨i, hi, hmem⟩ := mem_batches.mp (mem_of_mem_outcomes clash ho)
  exact ⟨units[i], List.getElem_mem hi, i, x, hmem, hx⟩

/-- A declaration without an entry made no offer, or its offer was not kept. -/
theorem exists_loss {units : List SourceUnit} {f : Fate Decl Entry}
    (hf : f ∈ all clash attempts entry units) (hnone : f.kept? = none) :
    ∃ unit ∈ units, ∃ i, ((f.unit, f.decl), none) ∈ attempts unit i ∨
      ∃ row ∈ rows clash attempts units, row.isKept = false ∧
        ((f.unit, f.decl), some row.offer) ∈ attempts unit i := by
  obtain ⟨⟨d, offer⟩, ho, rfl⟩ := List.mem_map.mp hf
  obtain rfl := Option.map_eq_none_iff.mp hnone
  rcases lost_of_mem_outcomes clash ho with hnever | ⟨row, hrow, hlost, hmade⟩
  · obtain ⟨i, hi, hmem⟩ := mem_batches.mp hnever
    exact ⟨units[i], List.getElem_mem hi, i, .inl hmem⟩
  · obtain ⟨i, hi, hmem⟩ := mem_batches.mp hmade
    rw [batches_filterMap] at hrow
    exact ⟨units[i], List.getElem_mem hi, i, .inr ⟨row, hrow, hlost, hmem⟩⟩

/-- All declarations have entries exactly if all of them make offers and all offers are kept. -/
theorem all_isSome_iff (units : List SourceUnit) :
    (∀ f ∈ all clash attempts entry units, f.kept?.isSome = true) ↔
      (∀ i, ∀ h : i < units.length, ∀ a ∈ attempts units[i] i, a.2.isSome = true) ∧
        ∀ row ∈ rows clash attempts units, row.isKept = true := by
  rw [rows, ← batches_filterMap, all, List.forall_mem_map]
  simp only [Option.isSome_map]
  rw [outcomes_all_isSome]
  refine and_congr_left fun _ => ?_
  constructor
  · exact fun h i hi a ha => h a (mem_batches.mpr ⟨i, hi, ha⟩)
  · intro h a ha
    obtain ⟨i, hi, hmem⟩ := mem_batches.mp ha
    exact h i hi a hmem

end Fate

namespace Generation

variable (flags : DocumentFlags) (units : List SourceUnit)

/-- The fates of the tagged functions of merged files. -/
def functionFates : List (Fate FunctionDecl (FunctionEntry × Association)) :=
  Fate.all Offer.Clashes SourceUnit.functionAttempts (fun o => (o.entry, o.association)) units

/-- The fates of the tagged enums of merged files. -/
def enumFates : List (Fate EnumDecl EnumEntry) :=
  Fate.all EnumOffer.Clashes SourceUnit.enumAttempts (·.entry) units

theorem functionRows_ofUnit :
    functionRows (units.map (ofUnit flags)) =
      Fate.rows Offer.Clashes SourceUnit.functionAttempts units := by
  rw [functionRows, allOffers, batches_of_map, Fate.rows]
  simp only [SourceUnit.functionAttempts_offers flags]

theorem enumRows_ofUnit :
    enumRows (units.map (ofUnit flags)) =
      Fate.rows EnumOffer.Clashes SourceUnit.enumAttempts units := by
  rw [enumRows, allEnumOffers, batches_of_map, Fate.rows]
  simp only [SourceUnit.enumAttempts_offers flags]

variable {units}

theorem mem_merge_ofUnit {unit : SourceUnit} (hunit : unit ∈ units) {d : Diagnostic}
    (hd : d ∈ (ofUnit flags unit).diagnostics) :
    d ∈ (merge (units.map (ofUnit flags))).diagnostics :=
  (mem_merge_diagnostics _ d).mpr (.inl ⟨_, List.mem_map_of_mem hunit, hd⟩)

theorem functionFates_entry {f : Fate FunctionDecl (FunctionEntry × Association)}
    (hf : f ∈ functionFates units) {entry : FunctionEntry} {association : Association}
    (h : f.kept? = some (entry, association)) :
    association.functionName = f.decl.name ∧
      ∃ c, Candidate.ofDecl? f.unit.registry f.decl = some c ∧
        entry = .ofSignature c.signature ∧ association = .ofSignature c.signature := by
  obtain ⟨unit, _, i, o, ho, heq⟩ := Fate.exists_offer hf h
  obtain ⟨rfl, rfl⟩ := Prod.mk.inj heq
  obtain ⟨rfl, hoffer⟩ := SourceUnit.functionAttempts_spec ho
  obtain ⟨_, c, hc, hentry, hassociation⟩ := hoffer o rfl
  refine ⟨?_, c, hc, hentry, hassociation⟩
  rw [hassociation]
  exact (Candidate.ofDecl?_isAbout hc).1

theorem functionFates_reported {f : Fate FunctionDecl (FunctionEntry × Association)}
    (hf : f ∈ functionFates units) (hnone : f.kept? = none) :
    ∃ d ∈ (merge (units.map (ofUnit flags))).diagnostics,
      d.IsErrorOf .function f.decl.name f.unit.displayPath := by
  obtain ⟨unit, hunit, i, hrejected | ⟨row, hrow, hlost, hoffered⟩⟩ := Fate.exists_loss hf hnone
  · obtain ⟨rfl, _⟩ := SourceUnit.functionAttempts_spec hrejected
    obtain ⟨d, hd, herror⟩ := ofUnit_function_reported flags f.unit hrejected rfl
    exact ⟨d, mem_merge_ofUnit flags hunit hd, herror⟩
  · obtain ⟨rfl, hoffer⟩ := SourceUnit.functionAttempts_spec hoffered
    obtain ⟨hfile, c, hc, _, hassociation⟩ := hoffer row.offer rfl
    rw [← functionRows_ofUnit flags] at hrow
    obtain ⟨d, hd⟩ := List.exists_mem_of_ne_nil _ (errors_ne_nil hrow hlost)
    have herror := errors_isErrorOf hfile d hd
    rw [hassociation, Association.ofSignature, (Candidate.ofDecl?_isAbout hc).1] at herror
    exact ⟨d, (mem_merge_diagnostics _ d).mpr (.inr (.inl ⟨row, hrow, hd⟩)), herror⟩

theorem enumFates_entry {e : Fate EnumDecl EnumEntry} (he : e ∈ enumFates units)
    {entry : EnumEntry} (h : e.kept? = some entry) :
    entry.id = e.decl.name ∧ ∃ desc, e.decl.Describes desc ∧ entry = .ofEnum desc := by
  obtain ⟨unit, _, i, o, ho, rfl⟩ := Fate.exists_offer he h
  obtain ⟨_, desc, hdesc, hentry⟩ := (SourceUnit.enumAttempts_spec ho).2 o rfl
  refine ⟨?_, desc, hdesc, hentry⟩
  rw [hentry]
  exact hdesc.shape.1

theorem enumFates_reported {e : Fate EnumDecl EnumEntry} (he : e ∈ enumFates units)
    (hnone : e.kept? = none) :
    ∃ d ∈ (merge (units.map (ofUnit flags))).diagnostics,
      d.IsErrorOf .enum e.decl.name e.unit.displayPath := by
  obtain ⟨unit, hunit, i, hinvalid | ⟨row, hrow, hlost, hoffered⟩⟩ := Fate.exists_loss he hnone
  · obtain ⟨rfl, _⟩ := SourceUnit.enumAttempts_spec hinvalid
    obtain ⟨d, hd, herror⟩ := ofUnit_enum_reported flags e.unit hinvalid rfl
    exact ⟨d, mem_merge_ofUnit flags hunit hd, herror⟩
  · obtain ⟨rfl, hoffer⟩ := SourceUnit.enumAttempts_spec hoffered
    obtain ⟨hfile, desc, hdesc, hentry⟩ := hoffer row.offer rfl
    have hname : row.offer.entry.id = e.decl.name := by
      rw [hentry]
      exact hdesc.shape.1
    rw [← enumRows_ofUnit flags] at hrow
    have hd : row.offer.error ∈ EnumOffer.errors row := by
      rw [EnumOffer.errors, if_neg (Bool.eq_false_iff.mp hlost)]
      exact List.mem_cons_self
    exact ⟨row.offer.error, (mem_merge_diagnostics _ _).mpr (.inr (.inr ⟨row, hrow, hd⟩)),
      rfl, rfl, hname, hfile⟩

variable (units)

/-- Merged files have no errors exactly if every tagged declaration has its entry. -/
theorem merge_hasErrors_iff_fates :
    (merge (units.map (ofUnit flags))).hasErrors = false ↔
      (∀ f ∈ functionFates units, f.kept?.isSome = true) ∧
        ∀ e ∈ enumFates units, e.kept?.isSome = true := by
  rw [merge_hasErrors_eq_false, functionRows_ofUnit, enumRows_ofUnit, functionFates, enumFates,
    Fate.all_isSome_iff, Fate.all_isSome_iff, List.forall_mem_map]
  have hparts : (∀ unit ∈ units, (ofUnit flags unit).hasErrors = false) ↔
      (∀ i, ∀ h : i < units.length,
        ∀ a ∈ units[i].functionAttempts i, a.2.isSome = true) ∧
      ∀ i, ∀ h : i < units.length, ∀ a ∈ units[i].enumAttempts i, a.2.isSome = true := by
    rw [List.forall_mem_iff_getElem, ← forall_and]
    refine forall_congr' fun i => ?_
    rw [← forall_and]
    exact forall_congr' fun h => ofUnit_hasErrors_eq_false flags units[i] i
  rw [hparts, and_and_and_comm]

/-- The merged generation of files accounts for every tagged declaration of every file: it holds the
entries of declarations in order and nothing else, a declaration without an entry is reported by
name and file, and only such declarations are errors. -/
theorem merge_accountsFor :
    ∃ functions enums, (merge (units.map (ofUnit flags))).AccountsFor units functions enums := by
  have hassociations : (merge (units.map (ofUnit flags))).associations =
      (kept (functionRows (units.map (ofUnit flags)))).map (·.association) := by
    rw [merge_eq]
  refine ⟨functionFates units, enumFates units, {
    functions_declared :=
      Fate.all_declared _ _ _ SourceUnit.functionAttempts_declared units
    functions_kept := ?_
    associations_length := ?_
    function_entry := fun f hf _ _ h => functionFates_entry hf h
    function_reported := fun f hf h => functionFates_reported flags hf h
    enums_declared := Fate.all_declared _ _ _ SourceUnit.enumAttempts_declared units
    enums_kept := ?_
    enum_entry := fun e he _ h => enumFates_entry he h
    enum_reported := fun e he h => enumFates_reported flags he h
    hasErrors_iff := merge_hasErrors_iff_fates flags units }⟩
  · rw [functionFates, Fate.all_entries, ← functionRows_ofUnit flags, merge_functions,
      hassociations, List.zip_map']
  · rw [hassociations, merge_functions, List.length_map, List.length_map]
  · rw [enumFates, Fate.all_entries, ← enumRows_ofUnit flags, merge_enums]

end Generation

end CustomFunctions
