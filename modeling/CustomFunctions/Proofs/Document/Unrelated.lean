import CustomFunctions.Proofs.Document.Attempts
import CustomFunctions.Proofs.Signature.InlineTypes
import CustomFunctions.Proofs.Signature.Repeating
import CustomFunctions.Proofs.TypeExpr.Printing
import CustomFunctions.Proofs.ValueType.Names

/-!
# Declarations that make no difference

A file says the same without its untagged declarations. And what it says about functions stays the
same when further enums are declared behind its own, as long as their names are not written in a type
of the file, in any letter case.

## Main definitions

- `SourceUnit.tagged` — a file without its untagged declarations
- `SourceUnit.writtenNames` — the names in the types of a file, be they annotations or type blocks
- `Generation.AgreeOnFunctions` — generations that say the same about functions
- `Generation.ofUnit_ignores_unrelated` — which declarations make no difference
-/

namespace CustomFunctions

-- ════════════════════════════════════════════════════════════════════════
-- Untagged declarations
-- ════════════════════════════════════════════════════════════════════════

/-- An untagged declaration is passed over. -/
theorem EnumRegistry.registrations_filter (registry : EnumRegistry) (decls : List EnumDecl) :
    registrations registry (decls.filter EnumDecl.isTagged) = registrations registry decls := by
  fun_induction registrations registry decls with
  | case1 => rfl
  | case2 registry decl rest r hr ih =>
    have htagged := EnumDecl.registration?_isSome registry decl
    rw [hr, Option.isSome_some] at htagged
    rw [List.filter_cons_of_pos htagged.symm, registrations, hr]
    dsimp only
    rw [ih]
  | case3 registry decl rest hnone ih =>
    have htagged := EnumDecl.registration?_isSome registry decl
    rw [hnone, Option.isSome_none] at htagged
    rw [List.filter_cons_of_neg (by simp [← htagged]), ih]

/-- An untagged declaration makes no candidate. -/
theorem Candidate.filterMap_ofDecl?_filter (registry : EnumRegistry) (decls : List FunctionDecl) :
    (decls.filter FunctionDecl.isTagged).filterMap (ofDecl? registry) =
      decls.filterMap (ofDecl? registry) := by
  rw [List.filterMap_filter]
  congr 1
  funext decl
  by_cases htagged : decl.isTagged = true
  · exact if_pos htagged
  · rw [if_neg htagged]
    rw [← ofDecl?_isSome registry decl, Option.not_isSome_iff_eq_none] at htagged
    exact htagged.symm

namespace SourceUnit

/-- The file without its untagged declarations. -/
def tagged (unit : SourceUnit) : SourceUnit :=
  { unit with
    functions := unit.functions.filter FunctionDecl.isTagged
    enums := unit.taggedEnums }

theorem scan_tagged (unit : SourceUnit) :
    EnumRegistry.scan unit.tagged = EnumRegistry.scan unit := by
  have hregistrations : unit.tagged.registrations = unit.registrations :=
    EnumRegistry.registrations_filter .empty unit.enums
  rw [scan_eq, scan_eq, hregistrations]
  rfl

theorem reviews_tagged (unit : SourceUnit) :
    Generation.reviews unit.tagged = Generation.reviews unit := by
  unfold Generation.reviews
  rw [scan_tagged]
  dsimp only
  rw [tagged, Candidate.filterMap_ofDecl?_filter]

end SourceUnit

-- ════════════════════════════════════════════════════════════════════════
-- Further enums
-- ════════════════════════════════════════════════════════════════════════

namespace EnumRegistry

theorem registrations_append (registry : EnumRegistry) (decls more : List EnumDecl) :
    registrations registry (decls ++ more) = registrations registry decls ++
      registrations ⟨registry.entries ++ (registrations registry decls).map (·.entry)⟩ more := by
  fun_induction registrations registry decls with
  | case1 => simp
  | case2 registry decl rest r hr ih =>
    rw [List.cons_append, registrations, hr]
    simp [ih]
  | case3 registry decl rest hnone ih =>
    rw [List.cons_append, registrations, hnone]
    exact ih

/-- A registration has the name of one of the declarations. -/
theorem exists_decl_of_mem_registrations {registry : EnumRegistry} {decls : List EnumDecl}
    {r : Registration} (h : r ∈ registrations registry decls) :
    ∃ decl ∈ decls, r.entry.name = decl.name := by
  obtain ⟨before, after, hsplit⟩ := List.append_of_mem h
  have hsound := registrations_isSound registry decls before r after hsplit
  have hdecl : r.decl ∈ (registrations registry decls).map (·.decl) := List.mem_map_of_mem h
  rw [registrations_decls] at hdecl
  exact ⟨r.decl, List.mem_of_mem_filter hdecl, hsound.name_eq⟩

/-- Entries behind those of a registry are not found under names that differ from theirs in more than
letter case. -/
theorem find?_append {entries more : List RegisteredEnum} {name : String}
    (h : ∀ entry ∈ more, Text.lowerCase entry.name ≠ Text.lowerCase name) :
    find? ⟨entries ++ more⟩ name = find? ⟨entries⟩ name := by
  have hnone : more.find? (fun entry => Text.lowerCase entry.name = Text.lowerCase name) = none := by
    rw [List.find?_eq_none]
    intro entry hentry
    simpa using h entry hentry
  unfold find?
  rw [List.find?_append, hnone, Option.or_none]

end EnumRegistry

/-- The types in the type blocks of the tags. -/
def TagSet.blockTypes (set : TagSet) : List TypeExpr :=
  set.tags.filterMap fun tag =>
    (TypeBlock.split tag.value.toList).1.map fun block => TypeExpr.parse (String.ofList block)

theorem TagSet.blockTypes_eq (set : TagSet) :
    set.blockTypes = (set.tags.filterMap fun tag =>
      (TypeBlock.split tag.value.toList).1.map String.ofList).map TypeExpr.parse := by
  simp only [blockTypes, List.map_filterMap, Option.map_map]
  rfl

theorem TagSet.parse_mem_blockTypes {set : TagSet} {tag : Tag} (htag : tag ∈ set.tags) {type : String}
    (h : (TypeBlock.split tag.value.toList).1.map String.ofList = some type) :
    TypeExpr.parse type ∈ set.blockTypes := by
  obtain ⟨block, hblock, rfl⟩ := Option.map_eq_some_iff.mp h
  refine List.mem_filterMap.mpr ⟨tag, htag, ?_⟩
  rw [hblock]
  rfl

/-- The types of a declaration, those in the code before those in the tags of its comment. -/
def FunctionDecl.writtenTypes (decl : FunctionDecl) : List TypeExpr :=
  decl.parameters.filterMap (·.type?) ++ decl.returnType?.toList ++
    decl.doc.toList.flatMap fun doc => (TagSet.ofComment doc).blockTypes

namespace SourceUnit

/-- The names in the types of the functions of the file. -/
def writtenNames (unit : SourceUnit) : List String :=
  unit.functions.flatMap fun decl => decl.writtenTypes.flatMap TypeExpr.names

/-- The file with further enums declared behind its own. -/
def withEnums (unit : SourceUnit) (more : List EnumDecl) : SourceUnit :=
  { unit with enums := unit.enums ++ more }

/-- Nothing changes for the names in the types of the file if none of the further enums has one of
them, in any letter case. -/
theorem registry_withEnums_agreesOn {unit : SourceUnit} {more : List EnumDecl}
    (h : ∀ decl ∈ more, ∀ name ∈ unit.writtenNames,
      Text.lowerCase decl.name ≠ Text.lowerCase name) :
    unit.registry.AgreesOn (unit.withEnums more).registry unit.writtenNames := by
  intro name hname
  have hsplit := EnumRegistry.registrations_append .empty unit.enums more
  rw [registry, registry, scan_eq, scan_eq, registrations, withEnums, hsplit, List.map_append]
  refine EnumRegistry.find?_append fun entry hentry => ?_
  obtain ⟨r, hr, rfl⟩ := List.mem_map.mp hentry
  obtain ⟨decl, hdecl, heq⟩ := EnumRegistry.exists_decl_of_mem_registrations hr
  rw [heq]
  exact h decl hdecl name hname

end SourceUnit

namespace Candidate

variable {registry other : EnumRegistry} {decl : FunctionDecl} {tags : TagSet}

-- ════════════════════════════════════════════════════════════════════════
-- What a candidate reads of the enums
-- ════════════════════════════════════════════════════════════════════════

theorem names_dropOptional (e : TypeExpr) : (dropOptional e).1.names = e.names := by
  cases e with
  | optional inner => rw [dropOptional, TypeExpr.names]
  | _ => rfl

theorem names_dropRest (rest : Bool) (e : TypeExpr) : (dropRest rest e).1.names = e.names := by
  have helement : (e.element?.getD e).names = e.names := by
    cases h : e.element? with
    | none => rfl
    | some element => exact TypeExpr.names_of_element h
  unfold dropRest
  split
  · rw [TypeExpr.names]
  · cases rest with
    | false => rfl
    | true => exact helement

/-- A parameter depends on what is known about the names in its type. -/
theorem parameter_of_agreesOn {p : ParameterDecl} {tag : Option ParamTag}
    (h : ∀ e ∈ annotation? p tag, registry.AgreesOn other e.names) :
    parameter other p tag = parameter registry p tag := by
  have hresolve : ∀ e ∈ annotation? p tag,
      ValueType.resolve other .parameter (dropRest p.rest (dropOptional e).1).1 =
        ValueType.resolve registry .parameter (dropRest p.rest (dropOptional e).1).1 := by
    intro e he
    apply ValueType.resolve_of_agreesOn
    rw [names_dropRest, names_dropOptional]
    exact h e he
  unfold parameter
  dsimp only
  split
  · rfl
  · next e he =>
    rw [hresolve e he]

/-- The type of a parameter is one of those in the tags, or else it stands in the code. -/
theorem annotation?_mem {p : ParameterDecl} {e : TypeExpr}
    (he : annotation? p ((paramTags decl tags).find? (·.name = p.name)) = some e) :
    e ∈ tags.blockTypes ∨ p.type? = some e := by
  rcases Option.or_eq_some_iff.mp he with he | ⟨_, he⟩
  · left
    obtain ⟨type, htype, rfl⟩ := Option.map_eq_some_iff.mp he
    obtain ⟨told, htold, htext⟩ := Option.bind_eq_some_iff.mp htype
    obtain ⟨tag, htag, hread⟩ := exists_of_mem_paramTags (List.mem_of_find?_eq_some htold)
    exact TagSet.parse_mem_blockTypes (List.mem_of_mem_filter htag)
      (ParamTag.typeText_of_read? hread ▸ htext)
  · exact .inr he

theorem parameters_of_agreesOn (htags : ∀ e ∈ tags.blockTypes, registry.AgreesOn other e.names)
    (hcode : ∀ p ∈ decl.parameters, ∀ e ∈ p.type?, registry.AgreesOn other e.names) :
    parameters other decl tags = parameters registry decl tags := by
  refine List.map_congr_left fun p hp => parameter_of_agreesOn fun e he => ?_
  rcases annotation?_mem he with he | he
  · exact htags e he
  · exact hcode p hp e he

theorem result_of_agreesOn (htags : ∀ e ∈ tags.blockTypes, registry.AgreesOn other e.names)
    (hcode : ∀ e ∈ decl.returnType?, registry.AgreesOn other e.names) (ps : List Parameter) :
    result other decl tags ps = result registry decl tags ps := by
  unfold result
  split
  · rfl
  · dsimp only
    split
    · next e he =>
      apply ValueType.resolve_of_agreesOn
      rcases Option.or_eq_some_iff.mp he with he | ⟨_, he⟩
      · obtain ⟨type, htype, rfl⟩ := Option.map_eq_some_iff.mp he
        obtain ⟨tag, htag, htext⟩ := Option.bind_eq_some_iff.mp htype
        exact htags _ (TagSet.parse_mem_blockTypes (List.mem_of_find?_eq_some htag) htext)
      · exact hcode e he
    · rfl

/-- A candidate depends on what is known about the names in the types of its declaration. -/
theorem ofDecl?_of_agreesOn
    (h : ∀ e ∈ decl.writtenTypes, registry.AgreesOn other e.names) :
    ofDecl? other decl = ofDecl? registry decl := by
  cases hdoc : decl.doc with
  | none =>
    unfold ofDecl?
    rw [hdoc]
    rfl
  | some doc =>
    rw [FunctionDecl.writtenTypes, hdoc, List.forall_mem_append, List.forall_mem_append] at h
    obtain ⟨⟨hannotations, hreturn⟩, hdocs⟩ := h
    have htags : ∀ e ∈ (TagSet.ofComment doc).blockTypes, registry.AgreesOn other e.names := by
      simpa using hdocs
    have hparameters := parameters_of_agreesOn htags fun p hp e he =>
      hannotations e (List.mem_filterMap.mpr ⟨p, hp, he⟩)
    have hresult := result_of_agreesOn htags fun e he => hreturn e (Option.mem_toList.mpr he)
    unfold ofDecl?
    simp only [Option.bind_eq_bind, hdoc, Option.bind_some, hparameters, hresult]

end Candidate

namespace SourceUnit

/-- Enums with other names than those in the types of the file leave the reviews of its functions as
they are. -/
theorem reviews_withEnums {unit : SourceUnit} {more : List EnumDecl}
    (h : ∀ decl ∈ more, ∀ name ∈ unit.writtenNames,
      Text.lowerCase decl.name ≠ Text.lowerCase name) :
    Generation.reviews (unit.withEnums more) = Generation.reviews unit := by
  have hcandidates : (unit.withEnums more).candidates = unit.candidates := by
    apply List.filterMap_congr
    intro decl hdecl
    apply Candidate.ofDecl?_of_agreesOn
    intro e he
    apply (registry_withEnums_agreesOn h).mono
    intro name hname
    exact List.mem_flatMap.mpr ⟨decl, hdecl, List.mem_flatMap.mpr ⟨e, he, hname⟩⟩
  exact congrArg (Review.all .empty) hcandidates

/-- What is found while the enums of a file are registered is about enums. -/
theorem scan_subject {unit : SourceUnit} {d : Diagnostic} (h : d ∈ (EnumRegistry.scan unit).2) :
    d.subject = .enum := by
  rw [scan_eq] at h
  obtain ⟨r, _, hd⟩ := List.mem_flatMap.mp h
  obtain ⟨_, _, rfl⟩ := List.mem_map.mp hd
  rfl

end SourceUnit

namespace Generation

/-- The generations have the same functions, the same calls that register them and the same
diagnostics about functions. -/
structure AgreeOnFunctions (g other : Generation) : Prop where
  functions : other.document.functions = g.document.functions
  associations : other.associations = g.associations
  diagnostics : other.diagnostics.filter (·.subject = .function) =
    g.diagnostics.filter (·.subject = .function)

variable {flags : DocumentFlags} {unit other : SourceUnit}

/-- The diagnostics about functions are those of the reviews. -/
theorem ofUnit_function_diagnostics (flags : DocumentFlags) (unit : SourceUnit) :
    (ofUnit flags unit).diagnostics.filter (·.subject = .function) =
      (((reviews unit).flatMap (·.diagnostics)).map (·.inFile unit.displayPath)).filter
        (·.subject = .function) := by
  have hnone : (EnumRegistry.scan unit).2.filter (·.subject = .function) = [] := by
    rw [List.filter_eq_nil_iff]
    intro d hd
    rw [SourceUnit.scan_subject hd]
    decide
  rw [ofUnit_diagnostics, List.filter_append, hnone, List.nil_append]

/-- Files with the same path and the same reviews say the same about functions. -/
theorem agreeOnFunctions_of_reviews (hpath : other.displayPath = unit.displayPath)
    (hreviews : reviews other = reviews unit) :
    AgreeOnFunctions (ofUnit flags unit) (ofUnit flags other) where
  functions := by
    show List.map _ (List.map _ (List.filter _ _)) = _
    rw [hreviews]
    rfl
  associations := by
    show List.map _ (List.map _ (List.filter _ _)) = _
    rw [hreviews]
    rfl
  diagnostics := by
    rw [ofUnit_function_diagnostics, ofUnit_function_diagnostics, hreviews, hpath]

/-- The generation of a file is the one of its tagged declarations. Enums declared behind those of the
file change nothing about functions if their names are not written in its types, in any letter case. -/
theorem ofUnit_ignores_unrelated (flags : DocumentFlags) (unit : SourceUnit) :
    ofUnit flags unit.tagged = ofUnit flags unit ∧
      ∀ more : List EnumDecl,
        (∀ decl ∈ more, ∀ name ∈ unit.writtenNames,
          Text.lowerCase decl.name ≠ Text.lowerCase name) →
        AgreeOnFunctions (ofUnit flags unit) (ofUnit flags (unit.withEnums more)) := by
  constructor
  · unfold ofUnit
    rw [unit.scan_tagged, unit.reviews_tagged]
    rfl
  · intro more h
    exact agreeOnFunctions_of_reviews rfl (SourceUnit.reviews_withEnums h)

/-- A file with an enum that a type block names, and with a function that has no tag. -/
def paintFile : SourceUnit where
  path := "paint.ts"
  language := .typeScript
  functions := [
    { name := "paint"
      doc := some ⟨["@customfunction", "@param {Array<Color> | null} hues"], 4⟩
      parameters := [{ name := "hues" }]
      returnType? := some (.generic "Promise" [.named "number"])
      isAsync := true
      returnHints := []
      line := 8 },
    { name := "mix"
      doc := none
      parameters := []
      returnType? := none
      isAsync := false
      returnHints := [.number]
      line := 9 }]
  enums := [
    { name := "Color"
      doc := some ⟨["@customenum {string}"], 1⟩
      members := [⟨"Red", some (.string "red"), none⟩]
      line := 2 }]

/-- The type in the comment of the function `paint`. -/
def huesType : TypeExpr :=
  .union [.generic "Array" [.named "Color"], .named "null"]

theorem huesType_isPlain : huesType.IsPlain := by
  have hcolor : TypeExpr.IsPlain (.generic "Array" [.named "Color"]) := by
    refine .generic (by decide +kernel) (List.cons_ne_nil _ _) ?_
    exact List.forall_mem_singleton.mpr (.named (by decide +kernel))
  refine .union (by decide) (List.forall_mem_cons.mpr ⟨hcolor, ?_⟩)
  exact List.forall_mem_singleton.mpr (.named (by decide +kernel))

theorem blockTypes_paint :
    (TagSet.ofComment ⟨["@customfunction", "@param {Array<Color> | null} hues"], 4⟩).blockTypes =
      [huesType] := by
  have hblocks :
      (TagSet.ofComment ⟨["@customfunction", "@param {Array<Color> | null} hues"], 4⟩).tags.filterMap
        (fun tag => (TypeBlock.split tag.value.toList).1.map String.ofList) =
          [huesType.textWith true] := by
    decide +kernel
  rw [TagSet.blockTypes_eq, hblocks, List.map_singleton, TypeExpr.parse_plain huesType_isPlain]

/-- An enum whose name begins like one that the file writes. -/
def colorSpace : EnumDecl where
  name := "ColorSpace"
  doc := some ⟨["@customenum"], 12⟩
  members := []
  line := 13

/-- The further enum is reported, and what is said about functions stays as it is. -/
theorem ofUnit_ignores_unrelated_colorSpace :
    paintFile.writtenNames = ["number", "Color", "null"] ∧
      (∀ decl ∈ [colorSpace], ∀ name ∈ paintFile.writtenNames,
        Text.lowerCase decl.name ≠ Text.lowerCase name) ∧
      (EnumRegistry.scan (paintFile.withEnums [colorSpace])).2.map (·.subjectName) = ["ColorSpace"] ∧
      AgreeOnFunctions (ofUnit {} paintFile) (ofUnit {} (paintFile.withEnums [colorSpace])) := by
  have hnames : paintFile.writtenNames = ["number", "Color", "null"] := by
    simp [SourceUnit.writtenNames, paintFile, FunctionDecl.writtenTypes, blockTypes_paint, huesType,
      TypeExpr.names, TypeExpr.namesOfEach]
  have hunrelated : ∀ decl ∈ [colorSpace], ∀ name ∈ paintFile.writtenNames,
      Text.lowerCase decl.name ≠ Text.lowerCase name := by
    rw [hnames]
    decide +kernel
  refine ⟨hnames, hunrelated, ?_, (ofUnit_ignores_unrelated {} paintFile).2 _ hunrelated⟩
  decide +kernel

end Generation

end CustomFunctions
