import CustomFunctions.CustomEnum.Registry
import Mathlib.Data.List.Basic

/-!
# Registrations of custom enums

Every tagged enum declaration is registered once. It is registered as valid exactly if it has no
problems, and then its name is an enum name that no earlier declaration has in any letter case, and
its members have values of one base type.

## Main definitions

- `Registration` — a tagged declaration with its entry and its problems
- `EnumRegistry.registrations` — the registrations of declarations in order
- `Registration.IsSound` — what holds of a registration behind the entries before it
-/

namespace CustomFunctions

/-- A tagged enum declaration with its entry in the registry and its problems. -/
structure Registration where
  decl : EnumDecl
  entry : RegisteredEnum
  problems : List EnumProblem

namespace EnumDecl

/-- Does the comment of the declaration have the tag of custom enums? -/
def isTagged (decl : EnumDecl) : Bool :=
  decl.doc.any fun doc => (TagSet.ofComment doc).has .customEnum

/-- The type block that the first tag of custom enums begins with. -/
def typeBlock? (decl : EnumDecl) : Option (List Char) := do
  let doc ← decl.doc
  let tag ← (TagSet.ofComment doc).first? .customEnum
  (TypeBlock.split tag.value.toList).1

/-- The declaration describes the enum, whatever its name and its tag are. -/
def Describes (decl : EnumDecl) (desc : CustomEnum) : Prop :=
  ∃ block description, decl.describe block description = .ok desc

/-- The registration of a declaration behind the entries of a registry, if it is tagged. -/
def registration? (registry : EnumRegistry) (decl : EnumDecl) : Option Registration :=
  (decl.doc.bind fun doc => decl.register? registry (TagSet.ofComment doc)).map
    fun (entry, problems) => ⟨decl, entry, problems⟩

/-- A described enum has the name of its declaration and at least one member, and the values of all
members are of its base type. -/
theorem Describes.shape {decl : EnumDecl} {desc : CustomEnum} (h : decl.Describes desc) :
    desc.name = decl.name ∧ desc.members ≠ [] ∧ ∀ m ∈ desc.members, m.value.base = desc.base := by
  obtain ⟨block, description, h⟩ := h
  unfold describe at h
  split at h
  · exact nomatch h
  split at h
  · exact nomatch h
  dsimp only at h
  split at h
  · exact nomatch h
  next first rest hmembers =>
  split at h
  · exact nomatch h
  next hany =>
  have hbase : ∀ m ∈ goodMembers decl.members, m.value.base = first.value.base := by
    simpa using hany
  have hne : goodMembers decl.members ≠ [] := by
    rw [hmembers]
    exact List.cons_ne_nil _ _
  -- whether a base is declared or not, the same enum is described
  split at h
  · split at h
    · cases h
      exact ⟨rfl, hne, hbase⟩
    · exact nomatch h
  · cases h
    exact ⟨rfl, hne, hbase⟩

/-- A declaration that describes no enum has a problem. -/
theorem describe_error_ne_nil {decl : EnumDecl} {block : Option (List Char)} {description : String}
    {problems : List EnumProblem} (h : decl.describe block description = .error problems) :
    problems ≠ [] := by
  unfold describe at h
  dsimp only at h
  repeat' split at h
  all_goals cases h
  all_goals exact List.cons_ne_nil _ _

theorem nameProblems_eq_nil (registry : EnumRegistry) (decl : EnumDecl) :
    nameProblems registry decl = [] ↔
      registry.claims decl.name = false ∧ Identifier.isEnumName decl.name = true := by
  rw [nameProblems, List.append_eq_nil_iff]
  cases registry.claims decl.name <;> cases Identifier.isEnumName decl.name <;> simp

end EnumDecl

namespace Registration

/-- What holds of a registration behind the entries of a registry. -/
structure IsSound (registry : EnumRegistry) (r : Registration) : Prop where
  name_eq : r.entry.name = r.decl.name
  valid_iff : r.entry.valid?.isSome = true ↔ r.problems = []
  fresh : r.entry.valid?.isSome = true → registry.claims r.decl.name = false
  name_valid : r.entry.valid?.isSome = true → Identifier.isEnumName r.decl.name = true
  described : ∀ desc, r.entry.valid? = some desc → r.decl.Describes desc

end Registration

namespace EnumDecl

theorem registration?_isSome (registry : EnumRegistry) (decl : EnumDecl) :
    (decl.registration? registry).isSome = decl.isTagged := by
  rw [registration?, isTagged, Option.isSome_map]
  cases decl.doc with
  | none => rfl
  | some doc => exact Option.isSome_map

theorem registration?_decl {registry : EnumRegistry} {decl : EnumDecl} {r : Registration}
    (h : decl.registration? registry = some r) : r.decl = decl := by
  obtain ⟨_, _, rfl⟩ := Option.map_eq_some_iff.mp h
  rfl

/-- A tagged declaration is registered as valid if its name has no problems and it describes an enum.
Otherwise it is registered as invalid, with the first of its problems. -/
theorem registration?_cases {registry : EnumRegistry} {decl : EnumDecl} {r : Registration}
    (h : decl.registration? registry = some r) :
    ∃ description,
      (∃ desc, nameProblems registry decl = [] ∧
        decl.describe decl.typeBlock? description = .ok desc ∧ r = ⟨decl, .valid desc, []⟩) ∨
      ((nameProblems registry decl = [] →
          ∃ more, decl.describe decl.typeBlock? description = .error more) ∧
        ∃ first more, r = ⟨decl, .invalid decl.name first.message, first :: more⟩) := by
  obtain ⟨⟨entry, problems⟩, hregister, rfl⟩ := Option.map_eq_some_iff.mp h
  obtain ⟨doc, hdoc, hregister⟩ := Option.bind_eq_some_iff.mp hregister
  obtain ⟨tag, htag, hentry⟩ := Option.map_eq_some_iff.mp hregister
  have hblock : decl.typeBlock? = (TypeBlock.split tag.value.toList).1 := by
    rw [typeBlock?, hdoc]
    show (TagSet.ofComment doc).first? .customEnum >>= _ = _
    rw [htag]
    rfl
  refine ⟨(TagSet.ofComment doc).description, ?_⟩
  rw [hblock]
  dsimp only at hentry
  split at hentry
  next desc hdescribe hnone =>
    obtain ⟨rfl, rfl⟩ := Prod.mk.inj hentry
    exact .inl ⟨desc, hnone, hdescribe, rfl⟩
  next desc p ps _ hsome =>
    obtain ⟨rfl, rfl⟩ := Prod.mk.inj hentry
    exact .inr ⟨fun hnone => absurd (hsome.symm.trans hnone) (List.cons_ne_nil p ps), p, ps, rfl⟩
  next _ _ more hdescribe =>
    obtain ⟨rfl, rfl⟩ := Prod.mk.inj hentry
    obtain ⟨first, rest, hproblems⟩ := List.exists_cons_of_ne_nil
      (List.append_ne_nil_of_right_ne_nil (nameProblems registry decl)
        (describe_error_ne_nil hdescribe))
    refine .inr ⟨fun _ => ⟨more, hdescribe⟩, first, rest, ?_⟩
    rw [hproblems]
    rfl

theorem registration?_isSound {registry : EnumRegistry} {decl : EnumDecl} {r : Registration}
    (h : decl.registration? registry = some r) : r.IsSound registry := by
  obtain ⟨description, hcases⟩ := registration?_cases h
  rcases hcases with ⟨desc, hnone, hdescribe, rfl⟩ | ⟨_, first, more, rfl⟩
  · have hname := (nameProblems_eq_nil registry decl).mp hnone
    have hdescribes : decl.Describes desc := ⟨_, _, hdescribe⟩
    exact {
      name_eq := hdescribes.shape.1
      valid_iff := by simp [RegisteredEnum.valid?]
      fresh := fun _ => hname.1
      name_valid := fun _ => hname.2
      described := fun _ hvalid => Option.some.inj hvalid ▸ hdescribes }
  · exact ⟨rfl, by simp [RegisteredEnum.valid?], nofun, nofun, nofun⟩

end EnumDecl

namespace EnumRegistry

/-- The registrations of declarations in order, behind the entries of a registry. -/
def registrations (registry : EnumRegistry) : List EnumDecl → List Registration
  | [] => []
  | decl :: rest =>
    match decl.registration? registry with
    | some r => r :: registrations ⟨registry.entries ++ [r.entry]⟩ rest
    | none => registrations registry rest

/-- Registering declarations appends their entries and reports their problems. -/
theorem addAll_eq (file : String) (registry : EnumRegistry) (decls : List EnumDecl) :
    addAll file registry decls =
      (⟨registry.entries ++ (registrations registry decls).map (·.entry)⟩,
        (registrations registry decls).flatMap fun r => r.problems.map (diagnostic file r.decl)) := by
  induction decls generalizing registry with
  | nil => simp [addAll, registrations]
  | cons decl rest ih =>
    rw [addAll, add, registrations, EnumDecl.registration?]
    cases decl.doc.bind fun doc => decl.register? registry (TagSet.ofComment doc) with
    | none => simp [ih]
    | some found => simp [ih]

theorem registrations_decls (registry : EnumRegistry) (decls : List EnumDecl) :
    (registrations registry decls).map (·.decl) = decls.filter EnumDecl.isTagged := by
  fun_induction registrations registry decls with
  | case1 => rfl
  | case2 registry decl rest r hr ih =>
    have htagged := EnumDecl.registration?_isSome registry decl
    rw [hr, Option.isSome_some] at htagged
    rw [List.map_cons, ih, List.filter_cons_of_pos htagged.symm, EnumDecl.registration?_decl hr]
  | case3 registry decl rest hnone ih =>
    have htagged := EnumDecl.registration?_isSome registry decl
    rw [hnone, Option.isSome_none] at htagged
    rw [ih, List.filter_cons_of_neg (by simp [← htagged])]

/-- Every registration is one of a declaration behind the entries of those before it. -/
theorem registrations_of_split (registry : EnumRegistry) (decls : List EnumDecl) :
    ∀ before r after, registrations registry decls = before ++ r :: after →
      ∃ decl : EnumDecl,
        decl.registration? ⟨registry.entries ++ before.map (·.entry)⟩ = some r := by
  fun_induction registrations registry decls with
  | case1 => simp
  | case2 registry decl rest first hfirst ih =>
    intro before r after hsplit
    cases before with
    | nil =>
      obtain ⟨rfl, _⟩ := List.cons.inj hsplit
      exact ⟨decl, by simpa using hfirst⟩
    | cons b before =>
      obtain ⟨rfl, hrest⟩ := List.cons.inj hsplit
      simpa using ih before r after hrest
  | case3 _ _ _ _ ih => exact ih

/-- Every registration is sound behind the entries of those before it. -/
theorem registrations_isSound (registry : EnumRegistry) (decls : List EnumDecl)
    (before : List Registration) (r : Registration) (after : List Registration)
    (hsplit : registrations registry decls = before ++ r :: after) :
    r.IsSound ⟨registry.entries ++ before.map (·.entry)⟩ := by
  obtain ⟨_, hr⟩ := registrations_of_split registry decls before r after hsplit
  exact EnumDecl.registration?_isSound hr

theorem claims_eq_false (registry : EnumRegistry) (name : String) :
    registry.claims name = false ↔
      ∀ entry ∈ registry.entries, Text.lowerCase entry.name ≠ Text.lowerCase name := by
  simp [claims]

end EnumRegistry

namespace SourceUnit

/-- The tagged enum declarations of the file. -/
def taggedEnums (unit : SourceUnit) : List EnumDecl :=
  unit.enums.filter EnumDecl.isTagged

/-- The registrations of the enums of the file. -/
def registrations (unit : SourceUnit) : List Registration :=
  EnumRegistry.registrations .empty unit.enums

theorem registrations_decls (unit : SourceUnit) :
    unit.registrations.map (·.decl) = unit.taggedEnums :=
  EnumRegistry.registrations_decls ..

theorem scan_eq (unit : SourceUnit) :
    EnumRegistry.scan unit =
      (⟨unit.registrations.map (·.entry)⟩,
        unit.registrations.flatMap fun r =>
          r.problems.map (EnumRegistry.diagnostic unit.displayPath r.decl)) := by
  rw [EnumRegistry.scan, EnumRegistry.addAll_eq]
  rfl

theorem exists_isSound {unit : SourceUnit} {r : Registration} (h : r ∈ unit.registrations) :
    ∃ registry, r.IsSound registry := by
  obtain ⟨before, after, hsplit⟩ := List.append_of_mem h
  exact ⟨_, EnumRegistry.registrations_isSound .empty unit.enums before r after hsplit⟩

/-- A valid enum has a name that no declaration before it has in any letter case. -/
theorem registrations_pairwise (unit : SourceUnit) :
    unit.registrations.Pairwise fun r s => s.entry.valid?.isSome = true →
      Text.lowerCase r.decl.name ≠ Text.lowerCase s.decl.name := by
  rw [List.pairwise_iff_getElem]
  intro i j hi hj hij hvalid
  have hsplit : unit.registrations =
      unit.registrations.take j ++ unit.registrations[j] :: unit.registrations.drop (j + 1) := by
    simp
  have hsound := EnumRegistry.registrations_isSound .empty unit.enums _ _ _ hsplit
  have hbefore : unit.registrations[i] ∈ unit.registrations.take j :=
    List.mem_take_iff_getElem.mpr ⟨i, by omega, rfl⟩
  obtain ⟨registry, hearlier⟩ := exists_isSound (List.mem_of_mem_take hbefore)
  have hfresh := (EnumRegistry.claims_eq_false _ _).mp (hsound.fresh hvalid)
    unit.registrations[i].entry (List.mem_append_right _ (List.mem_map_of_mem hbefore))
  rwa [hearlier.name_eq] at hfresh

end SourceUnit

end CustomFunctions
