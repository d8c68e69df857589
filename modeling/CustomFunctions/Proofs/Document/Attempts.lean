import CustomFunctions.Proofs.Document.Unit

/-!
# What tagged declarations offer

Every tagged function of a file makes a candidate that is reviewed, and every tagged enum is
registered. Those that pass offer an entry to a merge. Those that fail offer none, and for each of
them the generation of the file has an error with its name and its file.

## Main definitions

- `SourceUnit.functionAttempts`, `SourceUnit.enumAttempts` — the tagged declarations of a file with
  what they offer
- `Diagnostic.IsErrorOf` — an error that tells which declaration of which file it is about
- `Generation.ofUnit_hasErrors_eq_false` — no errors means that every tagged declaration offers
-/

namespace CustomFunctions

open FirstWins

/-- The diagnostic is an error about the declaration with the given name in a file. -/
structure Diagnostic.IsErrorOf (d : Diagnostic) (subject : Subject) (name file : String) :
    Prop where
  severity : d.severity = .error
  subject : d.subject = subject
  name : d.subjectName = name
  file : d.file = some file

theorem Diagnostic.IsErrorOf.isError {d : Diagnostic} {subject : Subject} {name file : String}
    (h : d.IsErrorOf subject name file) : d.isError = true :=
  decide_eq_true h.severity

namespace Review

theorem ofCandidate_isAbout {table : DuplicateTable} {c : Candidate} {name : String}
    (hname : c.signature.codeName = name) (hown : ∀ d ∈ c.diagnostics, d.IsAbout name) :
    ∀ d ∈ (ofCandidate table c).diagnostics, d.IsAbout name := by
  refine List.forall_mem_append.mpr ⟨hown, fun d hd => ?_⟩
  obtain ⟨_, _, rfl⟩ := List.mem_map.mp hd
  exact ⟨rfl, hname, rfl⟩

end Review

/-- In its file, an error about a function tells the function and the file. -/
theorem Diagnostic.IsAbout.inFile {d : Diagnostic} {name : String} (h : d.IsAbout name)
    (herror : d.isError = true) (file : String) :
    (d.inFile file).IsErrorOf .function name file := by
  refine ⟨of_decide_eq_true herror, h.subject, h.name, ?_⟩
  rw [Diagnostic.inFile, h.file]
  rfl

-- ════════════════════════════════════════════════════════════════════════
-- Attempts
-- ════════════════════════════════════════════════════════════════════════

namespace SourceUnit

/-- The tagged functions of the file. -/
def taggedFunctions (unit : SourceUnit) : List FunctionDecl :=
  unit.functions.filter FunctionDecl.isTagged

/-- The tagged functions of the file with the candidates that they make. -/
def drafts (unit : SourceUnit) : List (FunctionDecl × Candidate) :=
  unit.functions.filterMap fun decl =>
    (Candidate.ofDecl? unit.registry decl).map fun c => (decl, c)

/-- The tagged functions of the file with their candidates and their reviews. -/
def reviewed (unit : SourceUnit) : List ((FunctionDecl × Candidate) × Review) :=
  unit.drafts.zip (Generation.reviews unit)

/-- The tagged functions of a file at a position, with what they offer. -/
def functionAttempts (unit : SourceUnit) (i : Nat) :
    List ((SourceUnit × FunctionDecl) × Option Offer) :=
  unit.reviewed.map fun (draft, r) =>
    ((unit, draft.1),
      if r.isAccepted then some (.ofSignature i (some unit.displayPath) r.signature) else none)

/-- The tagged enums of a file at a position, with what they offer. -/
def enumAttempts (unit : SourceUnit) (i : Nat) :
    List ((SourceUnit × EnumDecl) × Option EnumOffer) :=
  unit.registrations.map fun r =>
    ((unit, r.decl), r.entry.valid?.map fun desc => ⟨i, some unit.displayPath, .ofEnum desc⟩)

theorem drafts_decls (unit : SourceUnit) : unit.drafts.map (·.1) = unit.taggedFunctions := by
  rw [drafts, taggedFunctions, List.map_filterMap, ← List.filterMap_eq_filter]
  refine List.filterMap_congr fun decl _ => ?_
  have htagged := Candidate.ofDecl?_isSome unit.registry decl
  cases h : Candidate.ofDecl? unit.registry decl <;> simp_all [Option.guard]

theorem drafts_candidates (unit : SourceUnit) : unit.drafts.map (·.2) = unit.candidates := by
  rw [drafts, candidates, List.map_filterMap]
  refine List.filterMap_congr fun decl _ => ?_
  cases Candidate.ofDecl? unit.registry decl <;> rfl

theorem drafts_length (unit : SourceUnit) :
    unit.drafts.length = (Generation.reviews unit).length := by
  have hcandidates := congrArg List.length unit.drafts_candidates
  rw [List.length_map] at hcandidates
  rw [hcandidates]
  exact (Review.all_length ..).symm

theorem reviewed_drafts (unit : SourceUnit) : unit.reviewed.map (·.1) = unit.drafts :=
  List.map_fst_zip (Nat.le_of_eq unit.drafts_length)

theorem reviewed_reviews (unit : SourceUnit) :
    unit.reviewed.map (·.2) = Generation.reviews unit :=
  List.map_snd_zip (Nat.le_of_eq unit.drafts_length.symm)

/-- A tagged function stands with the candidate it makes and a review of that candidate. -/
theorem reviewed_spec {unit : SourceUnit} {decl : FunctionDecl} {c : Candidate} {r : Review}
    (h : ((decl, c), r) ∈ unit.reviewed) :
    Candidate.ofDecl? unit.registry decl = some c ∧ ∃ table, r = Review.ofCandidate table c := by
  constructor
  · have hdraft : (decl, c) ∈ unit.drafts := by
      rw [← reviewed_drafts]
      exact List.mem_map_of_mem h
    obtain ⟨decl', _, hmap⟩ := List.mem_filterMap.mp hdraft
    obtain ⟨c', hc', heq⟩ := Option.map_eq_some_iff.mp hmap
    obtain ⟨rfl, rfl⟩ := Prod.mk.inj heq
    exact hc'
  · have hall := Review.all_forall₂ .empty unit.candidates
    rw [← drafts_candidates, List.forall₂_map_left_iff, drafts_candidates] at hall
    exact List.forall₂_zip hall h

theorem functionAttempts_declared (unit : SourceUnit) (i : Nat) :
    (unit.functionAttempts i).map (·.1) = unit.taggedFunctions.map (unit, ·) := by
  rw [← drafts_decls, ← reviewed_drafts, functionAttempts, List.map_map, List.map_map, List.map_map]
  rfl

theorem enumAttempts_declared (unit : SourceUnit) (i : Nat) :
    (unit.enumAttempts i).map (·.1) = unit.taggedEnums.map (unit, ·) := by
  rw [← registrations_decls, enumAttempts, List.map_map, List.map_map]
  rfl

/-- A function offers the entry and the association of the candidate that it makes. -/
theorem functionAttempts_spec {unit : SourceUnit} {i : Nat} {d : SourceUnit × FunctionDecl}
    {offer : Option Offer} (h : (d, offer) ∈ unit.functionAttempts i) :
    d.1 = unit ∧ ∀ o, offer = some o → o.file = some unit.displayPath ∧
      ∃ c, Candidate.ofDecl? unit.registry d.2 = some c ∧ o.entry = .ofSignature c.signature ∧
        o.association = .ofSignature c.signature := by
  obtain ⟨⟨⟨decl, c⟩, r⟩, hmem, heq⟩ := List.mem_map.mp h
  obtain ⟨rfl, rfl⟩ := Prod.mk.inj heq
  obtain ⟨hc, table, rfl⟩ := reviewed_spec hmem
  refine ⟨rfl, fun o ho => ?_⟩
  split at ho
  · obtain rfl := Option.some.inj ho
    exact ⟨rfl, c, hc, rfl, rfl⟩
  · exact nomatch ho

/-- An enum offers the entry of the enum that it describes. -/
theorem enumAttempts_spec {unit : SourceUnit} {i : Nat} {d : SourceUnit × EnumDecl}
    {offer : Option EnumOffer} (h : (d, offer) ∈ unit.enumAttempts i) :
    d.1 = unit ∧ ∀ o, offer = some o → o.file = some unit.displayPath ∧
      ∃ desc, d.2.Describes desc ∧ o.entry = .ofEnum desc := by
  obtain ⟨r, hr, heq⟩ := List.mem_map.mp h
  obtain ⟨rfl, rfl⟩ := Prod.mk.inj heq
  obtain ⟨_, hsound⟩ := exists_isSound hr
  refine ⟨rfl, fun o ho => ?_⟩
  obtain ⟨desc, hdesc, rfl⟩ := Option.map_eq_some_iff.mp ho
  exact ⟨rfl, desc, hsound.described desc hdesc, rfl⟩

/-- Attempts offer what the generation of the file offers. -/
theorem functionAttempts_offers (flags : DocumentFlags) (unit : SourceUnit) (i : Nat) :
    (unit.functionAttempts i).filterMap (·.2) = (Generation.ofUnit flags unit).offers i := by
  have haccepted : unit.accepted = (Generation.reviews unit).filterMap fun r =>
      if r.isAccepted then some r.signature else none := by
    rw [accepted, Review.accepted, ← List.filterMap_eq_map, List.filterMap_filter]
    rfl
  rw [Generation.ofUnit_offers, haccepted, ← reviewed_reviews, functionAttempts,
    List.filterMap_map, List.filterMap_map, List.map_filterMap]
  refine List.filterMap_congr fun attempt _ => ?_
  obtain ⟨_, r⟩ := attempt
  cases h : r.isAccepted
  · simp [h]
  · simp only [Function.comp_apply, h, if_true, Option.map_some]
    rfl

theorem enumAttempts_offers (flags : DocumentFlags) (unit : SourceUnit) (i : Nat) :
    (unit.enumAttempts i).filterMap (·.2) = (Generation.ofUnit flags unit).enumOffers i := by
  rw [Generation.enumOffers, Generation.ofUnit_enums, validEnums_eq, enumAttempts,
    List.filterMap_map, List.map_map, List.map_filterMap]
  rfl

end SourceUnit

-- ════════════════════════════════════════════════════════════════════════
-- Errors of one file
-- ════════════════════════════════════════════════════════════════════════

namespace Generation

theorem hasErrors_eq_false (g : Generation) :
    g.hasErrors = false ↔ ∀ d ∈ g.diagnostics, d.isError = false := by
  simp [hasErrors, errorCount, Diagnostic.tally]

variable (flags : DocumentFlags) (unit : SourceUnit)

theorem ofUnit_diagnostics :
    (ofUnit flags unit).diagnostics =
      (EnumRegistry.scan unit).2
        ++ ((reviews unit).flatMap (·.diagnostics)).map (·.inFile unit.displayPath) :=
  rfl

theorem mem_ofUnit_diagnostics {d : Diagnostic} :
    d ∈ (ofUnit flags unit).diagnostics ↔
      (∃ r ∈ unit.registrations, ∃ problem ∈ r.problems,
        EnumRegistry.diagnostic unit.displayPath r.decl problem = d) ∨
      ∃ r ∈ reviews unit, ∃ found ∈ r.diagnostics, found.inFile unit.displayPath = d := by
  rw [ofUnit_diagnostics, SourceUnit.scan_eq, List.mem_append]
  refine or_congr ?_ ?_
  · simp only [List.mem_flatMap, List.mem_map]
  · simp only [List.mem_map, List.mem_flatMap]
    exact ⟨fun ⟨found, ⟨r, hr, hfound⟩, heq⟩ => ⟨r, hr, found, hfound, heq⟩,
      fun ⟨r, hr, found, hfound, heq⟩ => ⟨found, ⟨r, hr, hfound⟩, heq⟩⟩

/-- A tagged function that offers nothing is reported. -/
theorem ofUnit_function_reported {i : Nat} {a : (SourceUnit × FunctionDecl) × Option Offer}
    (ha : a ∈ unit.functionAttempts i) (hnone : a.2 = none) :
    ∃ d ∈ (ofUnit flags unit).diagnostics, d.IsErrorOf .function a.1.2.name unit.displayPath := by
  obtain ⟨⟨⟨decl, c⟩, r⟩, hmem, rfl⟩ := List.mem_map.mp ha
  obtain ⟨hc, table, rfl⟩ := SourceUnit.reviewed_spec hmem
  obtain ⟨hname, habout⟩ := Candidate.ofDecl?_isAbout hc
  have hrejected : (Review.ofCandidate table c).isAccepted ≠ true := by
    intro haccepted
    simp [haccepted] at hnone
  rw [Ne, Review.isAccepted_iff_no_errors] at hrejected
  push Not at hrejected
  obtain ⟨d, hd, herror⟩ := hrejected
  have hreview : Review.ofCandidate table c ∈ reviews unit := by
    rw [← SourceUnit.reviewed_reviews]
    exact List.mem_map_of_mem hmem
  exact ⟨d.inFile unit.displayPath,
    (mem_ofUnit_diagnostics flags unit).mpr (.inr ⟨_, hreview, d, hd, rfl⟩),
    (Review.ofCandidate_isAbout hname habout d hd).inFile (by simpa using herror) _⟩

/-- A tagged enum that offers nothing is reported. -/
theorem ofUnit_enum_reported {i : Nat} {a : (SourceUnit × EnumDecl) × Option EnumOffer}
    (ha : a ∈ unit.enumAttempts i) (hnone : a.2 = none) :
    ∃ d ∈ (ofUnit flags unit).diagnostics, d.IsErrorOf .enum a.1.2.name unit.displayPath := by
  obtain ⟨r, hr, rfl⟩ := List.mem_map.mp ha
  obtain ⟨_, hsound⟩ := SourceUnit.exists_isSound hr
  have hproblems : r.problems ≠ [] := by
    rw [Ne, ← hsound.valid_iff, Option.map_eq_none_iff.mp hnone]
    exact Bool.false_ne_true
  obtain ⟨problem, hproblem⟩ := List.exists_mem_of_ne_nil _ hproblems
  exact ⟨_, (mem_ofUnit_diagnostics flags unit).mpr (.inl ⟨r, hr, problem, hproblem, rfl⟩),
    rfl, rfl, rfl, rfl⟩

/-- A file has no errors exactly if each of its tagged declarations offers an entry. -/
theorem ofUnit_hasErrors_eq_false (i : Nat) :
    (ofUnit flags unit).hasErrors = false ↔
      (∀ a ∈ unit.functionAttempts i, a.2.isSome = true) ∧
        ∀ a ∈ unit.enumAttempts i, a.2.isSome = true := by
  rw [hasErrors_eq_false]
  constructor
  · intro hclean
    constructor
    · intro a ha
      rw [Option.isSome_iff_ne_none]
      intro hnone
      obtain ⟨d, hd, herror⟩ := ofUnit_function_reported flags unit ha hnone
      exact Bool.eq_false_iff.mp (hclean d hd) herror.isError
    · intro a ha
      rw [Option.isSome_iff_ne_none]
      intro hnone
      obtain ⟨d, hd, herror⟩ := ofUnit_enum_reported flags unit ha hnone
      exact Bool.eq_false_iff.mp (hclean d hd) herror.isError
  · rintro ⟨hfunctions, henums⟩ d hd
    rcases (mem_ofUnit_diagnostics flags unit).mp hd with
      ⟨r, hr, problem, hproblem, rfl⟩ | ⟨r, hr, found, hfound, rfl⟩
    · have hsome := henums _ (List.mem_map_of_mem hr)
      rw [Option.isSome_map] at hsome
      obtain ⟨_, hsound⟩ := SourceUnit.exists_isSound hr
      rw [hsound.valid_iff.mp hsome] at hproblem
      exact absurd hproblem List.not_mem_nil
    · rw [← SourceUnit.reviewed_reviews] at hr
      obtain ⟨⟨draft, r'⟩, hmem, rfl⟩ := List.mem_map.mp hr
      have hsome := hfunctions _ (List.mem_map_of_mem hmem)
      obtain ⟨_, table, rfl⟩ := SourceUnit.reviewed_spec hmem
      have haccepted : (Review.ofCandidate table draft.2).isAccepted = true := by
        by_contra hrejected
        simp [hrejected] at hsome
      exact (Review.isAccepted_iff_no_errors table draft.2).mp haccepted found hfound

end Generation

end CustomFunctions
