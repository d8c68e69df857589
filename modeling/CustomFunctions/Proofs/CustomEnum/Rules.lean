import CustomFunctions.Proofs.CustomEnum.Registrations
import CustomFunctions.Proofs.Text.Basic
import Mathlib.Data.List.Forall2

/-!
# What the rules ask of custom enums

The rules for custom enums as conditions on a declaration and the tagged declarations before it, apart
from the way in which problems are collected. A declaration is registered as valid exactly if it keeps
all rules. Then it keeps its members and has no diagnostic; otherwise it has errors, the first of which
is the reason that stays in the registry.

## Main definitions

- `EnumDecl.KeepsRules` — what the rules ask of a declaration
- `Registration.IsDecided` — a declaration is registered as the rules say
- `SourceUnit.scan_decides` — all tagged declarations of a file are
-/

namespace CustomFunctions

/-- The texts that match `^[A-Za-z][A-Za-z0-9_]{0,127}$`. -/
def IsEnumId (s : String) : Prop :=
  ∃ c rest, s.toList = c :: rest ∧
    (('A' ≤ c ∧ c ≤ 'Z') ∨ ('a' ≤ c ∧ c ≤ 'z')) ∧
    (∀ d ∈ rest, ('A' ≤ d ∧ d ≤ 'Z') ∨ ('a' ≤ d ∧ d ≤ 'z') ∨ ('0' ≤ d ∧ d ≤ '9') ∨ d = '_') ∧
    rest.length ≤ 127

/-- The base type of the constant value of a member; none if it has no value or another one than a
number or a string. -/
def EnumMemberDecl.base? (m : EnumMemberDecl) : Option BaseType :=
  match m.value with
  | some (.number _) => some .number
  | some (.string _) => some .string
  | _ => none

/-- The value as a literal. -/
def EnumValue.literal : EnumValue → Literal
  | number x => .number x
  | string s => .string s

/-- The member has the name and the value that are declared. -/
def EnumMember.IsOf (decl : EnumMemberDecl) (m : EnumMember) : Prop :=
  m.name = decl.name ∧ decl.value = some m.value.literal

namespace EnumDecl

/-- The type block names a base type, in any letter case. -/
def Declares (decl : EnumDecl) (base : BaseType) : Prop :=
  ∃ block, decl.typeBlock? = some block ∧ Text.lowerCase (String.ofList block) = base.name

/-- There is no type block, or a blank one. -/
def DeclaresNone (decl : EnumDecl) : Prop :=
  ∀ block ∈ decl.typeBlock?, ∀ c ∈ block, Text.isBlank c = true

/-- What the rules ask of a tagged declaration behind other ones. -/
structure KeepsRules (earlier : List EnumDecl) (decl : EnumDecl) : Prop where
  name_valid : IsEnumId decl.name
  fresh : ∀ other ∈ earlier, Text.lowerCase other.name ≠ Text.lowerCase decl.name
  type_known : decl.DeclaresNone ∨ ∃ base, decl.Declares base
  has_members : decl.members ≠ []
  constant : ∀ m ∈ decl.members, m.base?.isSome = true
  uniform : ∀ m ∈ decl.members, ∀ other ∈ decl.members, m.base? = other.base?
  as_declared : ∀ base, decl.Declares base → ∀ m ∈ decl.members, m.base? = some base

end EnumDecl

-- ════════════════════════════════════════════════════════════════════════
-- Names
-- ════════════════════════════════════════════════════════════════════════

theorem isEnumNameChar_iff (c : Char) :
    Identifier.isEnumNameChar c = true ↔
      ('A' ≤ c ∧ c ≤ 'Z') ∨ ('a' ≤ c ∧ c ≤ 'z') ∨ ('0' ≤ c ∧ c ≤ '9') ∨ c = '_' := by
  simp only [Identifier.isEnumNameChar, Char.isAlphanum, Char.isDigit, Bool.or_eq_true,
    Bool.and_eq_true, Text.isAlpha_iff, decide_eq_true_eq, Char.le_def, ge_iff_le, or_assoc]

theorem isEnumName_iff (s : String) : Identifier.isEnumName s = true ↔ IsEnumId s := by
  unfold Identifier.isEnumName IsEnumId
  cases s.toList with
  | nil => simp
  | cons c rest =>
    simp only [List.cons.injEq, Bool.and_eq_true, List.all_eq_true, decide_eq_true_eq,
      Text.isAlpha_iff, isEnumNameChar_iff, Identifier.maxLength, Nat.lt_succ_iff]
    constructor
    · rintro ⟨⟨hc, hrest⟩, hlen⟩
      exact ⟨c, rest, ⟨rfl, rfl⟩, hc, hrest, hlen⟩
    · rintro ⟨c', rest', ⟨rfl, rfl⟩, hc, hrest, hlen⟩
      exact ⟨⟨hc, hrest⟩, hlen⟩

-- ════════════════════════════════════════════════════════════════════════
-- Members
-- ════════════════════════════════════════════════════════════════════════

namespace EnumDecl

/-- A member is taken with its value, or it has no value that can be taken. -/
theorem checkMember_cases (decl : EnumMemberDecl) :
    (∃ m, checkMember decl = .ok m ∧ m.IsOf decl ∧ decl.base? = some m.value.base) ∨
      ((∃ p, checkMember decl = .error p) ∧ decl.base? = none) := by
  obtain ⟨name, value, doc⟩ := decl
  cases value with
  | none => exact .inr ⟨⟨_, rfl⟩, rfl⟩
  | some literal =>
    cases literal with
    | number x => exact .inl ⟨_, rfl, ⟨rfl, rfl⟩, rfl⟩
    | string s => exact .inl ⟨_, rfl, ⟨rfl, rfl⟩, rfl⟩
    | boolean b => exact .inr ⟨⟨_, rfl⟩, rfl⟩

theorem memberProblems_eq_nil (members : List EnumMemberDecl) :
    memberProblems members = [] ↔ ∀ m ∈ members, m.base?.isSome = true := by
  rw [memberProblems, List.filterMap_eq_nil_iff]
  refine forall₂_congr fun m _ => ?_
  rcases checkMember_cases m with ⟨_, hcheck, _, hbase⟩ | ⟨⟨_, hcheck⟩, hbase⟩ <;>
    simp [hcheck, hbase]

/-- Members that can all be taken are kept in order, each with a value of its base type. -/
theorem goodMembers_forall₂ {members : List EnumMemberDecl}
    (h : ∀ m ∈ members, m.base?.isSome = true) :
    List.Forall₂ (fun decl m => m.IsOf decl ∧ decl.base? = some m.value.base) members
      (goodMembers members) := by
  induction members with
  | nil => exact .nil
  | cons decl rest ih =>
    rw [List.forall_mem_cons] at h
    rcases checkMember_cases decl with ⟨m, hcheck, hm⟩ | ⟨_, hnone⟩
    · have hgood : goodMembers (decl :: rest) = m :: goodMembers rest := by
        rw [goodMembers, List.filterMap_cons, hcheck]
        rfl
      exact hgood ▸ .cons hm (ih h.2)
    · rw [hnone] at h
      cases h.1

/-- The members that are taken have one base type exactly if all declared ones have it. -/
theorem forall_goodMembers_base {members : List EnumMemberDecl}
    (h : ∀ m ∈ members, m.base?.isSome = true) (base : BaseType) :
    (∀ m ∈ goodMembers members, m.value.base = base) ↔ ∀ m ∈ members, m.base? = some base := by
  have hall := goodMembers_forall₂ h
  generalize goodMembers members = good at hall
  induction hall with
  | nil => simp
  | cons hm _ ih =>
    rw [List.forall_mem_cons] at h
    rw [List.forall_mem_cons, List.forall_mem_cons, hm.2, Option.some.injEq]
    exact and_congr_right' (ih h.2)

-- ════════════════════════════════════════════════════════════════════════
-- Type blocks
-- ════════════════════════════════════════════════════════════════════════

/-- There are no blanks around the type in a block. -/
theorem trim_of_typeBlock? {decl : EnumDecl} {block : List Char}
    (h : decl.typeBlock? = some block) : Text.trim block = block := by
  obtain ⟨doc, _, h⟩ := Option.bind_eq_some_iff.mp h
  obtain ⟨tag, _, h⟩ := Option.bind_eq_some_iff.mp h
  unfold TypeBlock.split at h
  split at h
  · split at h
    all_goals
      obtain rfl := Option.some.inj h
      exact Text.trim_trim _
  · cases h

theorem declaredBase_of_trimmed {block : List Char} (h : Text.trim block = block) :
    declaredBase (some block) =
      if block = [] then .ok none
      else if Text.lowerCase (String.ofList block) = "number" then .ok (some .number)
      else if Text.lowerCase (String.ofList block) = "string" then .ok (some .string)
      else .error (.unsupportedType (String.ofList block)) := by
  have hempty : (String.ofList block = "") = (block = []) :=
    propext ⟨fun h => by simpa using congrArg String.toList h, fun h => h ▸ rfl⟩
  simp only [declaredBase, Option.getD_some, h, hempty]

/-- No base type is asked for exactly if there is no block or a blank one. -/
theorem declaredBase_eq_none_iff (decl : EnumDecl) :
    declaredBase decl.typeBlock? = .ok none ↔ decl.DeclaresNone := by
  rw [DeclaresNone]
  cases hblock : decl.typeBlock? with
  | none => exact ⟨fun _ => nofun, fun _ => rfl⟩
  | some block =>
    have htrim := trim_of_typeBlock? hblock
    rw [declaredBase_of_trimmed htrim]
    have hblank : (∀ b ∈ some block, ∀ c ∈ b, Text.isBlank c = true) ↔ block = [] := by
      rw [← htrim, Text.trim_eq_nil_iff, htrim]
      exact ⟨fun h => h block rfl, fun h _ hb => Option.some.inj hb ▸ h⟩
    rw [hblank]
    constructor
    · intro h
      by_contra hne
      rw [if_neg hne] at h
      split at h
      · cases h
      · split at h <;> cases h
    · intro h
      rw [if_pos h]

/-- A base type is asked for exactly if the block names it. -/
theorem declaredBase_eq_some_iff (decl : EnumDecl) (base : BaseType) :
    declaredBase decl.typeBlock? = .ok (some base) ↔ decl.Declares base := by
  rw [Declares]
  cases hblock : decl.typeBlock? with
  | none => exact ⟨nofun, fun ⟨_, h, _⟩ => nomatch h⟩
  | some block =>
    simp only [declaredBase_of_trimmed (trim_of_typeBlock? hblock), Option.some.injEq,
      exists_eq_left']
    split
    · next hempty =>
      rw [hempty]
      cases base <;> exact ⟨nofun, nofun⟩
    · split
      · next hnumber =>
        rw [hnumber]
        cases base <;> simp [BaseType.name]
      · next hnumber =>
        split
        · next hstring =>
          rw [hstring]
          cases base <;> simp [BaseType.name]
        · next hstring => cases base <;> simp [BaseType.name, hnumber, hstring]

-- ════════════════════════════════════════════════════════════════════════
-- Declarations
-- ════════════════════════════════════════════════════════════════════════

/-- A declaration describes an enum exactly if its members have values of one base type, which is the
one that is asked for, if one is. -/
theorem describe_eq_ok_iff {decl : EnumDecl} {block : Option (List Char)} {description : String}
    {desc : CustomEnum} :
    decl.describe block description = .ok desc ↔
      ∃ declared base, declaredBase block = .ok declared ∧ decl.members ≠ [] ∧
        (∀ m ∈ decl.members, m.base? = some base) ∧ (∀ other ∈ declared, other = base) ∧
        desc = ⟨decl.name, base, description, goodMembers decl.members⟩ := by
  constructor
  · intro h
    unfold describe at h
    split at h
    · cases h
    next declared hdeclared =>
    split at h
    · cases h
    next hproblems =>
    have hconstant := (memberProblems_eq_nil _).mp hproblems
    dsimp only at h
    split at h
    · cases h
    next first rest hgood =>
    split at h
    · cases h
    next hany =>
    have hbase : ∀ m ∈ decl.members, m.base? = some first.value.base :=
      (forall_goodMembers_base hconstant _).mp (by simpa using hany)
    have hmembers : decl.members ≠ [] := by
      intro hnil
      rw [hnil] at hgood
      cases hgood
    split at h
    · split at h
      · next other hother =>
        exact ⟨_, _, hdeclared, hmembers, hbase, fun _ hmem => Option.some.inj hmem ▸ hother,
          (Except.ok.inj h).symm⟩
      · cases h
    · exact ⟨_, _, hdeclared, hmembers, hbase, nofun, (Except.ok.inj h).symm⟩
  · rintro ⟨declared, base, hdeclared, hmembers, hbase, hasDeclared, rfl⟩
    have hconstant : ∀ m ∈ decl.members, m.base?.isSome = true := fun m hm => by
      rw [hbase m hm, Option.isSome_some]
    have hgood := (forall_goodMembers_base hconstant base).mpr hbase
    rw [describe, hdeclared, (memberProblems_eq_nil _).mpr hconstant]
    dsimp only
    split
    · next hnil =>
      have hlength := (goodMembers_forall₂ hconstant).length_eq
      rw [hnil, List.length_nil, List.length_eq_zero_iff] at hlength
      exact absurd hlength hmembers
    next first rest hcons =>
    have hfirst : first.value.base = base := hgood first (hcons ▸ List.mem_cons_self)
    have hany : ¬ (goodMembers decl.members).any (fun m => m.value.base ≠ base) = true := by
      simpa using hgood
    rw [hfirst, if_neg hany]
    cases declared with
    | none => rfl
    | some other => exact if_pos (hasDeclared other rfl)

theorem exists_describe_iff (decl : EnumDecl) (description : String) :
    (∃ desc, decl.describe decl.typeBlock? description = .ok desc) ↔
      (decl.DeclaresNone ∨ ∃ base, decl.Declares base) ∧ decl.members ≠ [] ∧
        ∃ base, (∀ m ∈ decl.members, m.base? = some base) ∧
          ∀ other, decl.Declares other → other = base := by
  simp only [describe_eq_ok_iff]
  constructor
  · rintro ⟨_, declared, base, hdeclared, hmembers, hbase, hother, _⟩
    refine ⟨?_, hmembers, base, hbase, fun other h => ?_⟩
    · cases declared with
      | none => exact .inl ((declaredBase_eq_none_iff decl).mp hdeclared)
      | some named => exact .inr ⟨named, (declaredBase_eq_some_iff decl named).mp hdeclared⟩
    · have hsome := (declaredBase_eq_some_iff decl other).mpr h
      rw [hdeclared, Except.ok.injEq] at hsome
      exact hother other hsome
  · rintro ⟨hknown, hmembers, base, hbase, hother⟩
    rcases hknown with hnone | ⟨named, hnamed⟩
    · exact ⟨_, none, base, (declaredBase_eq_none_iff decl).mpr hnone, hmembers, hbase, nofun, rfl⟩
    · refine ⟨_, some named, base, (declaredBase_eq_some_iff decl named).mpr hnamed, hmembers, hbase,
        ?_, rfl⟩
      intro other h
      exact Option.some.inj h ▸ hother named hnamed

/-- A declaration keeps the rules exactly if its name has no problems and it describes an enum. -/
theorem keepsRules_iff {registry : EnumRegistry} {earlier : List EnumDecl} (decl : EnumDecl)
    (hnames : registry.entries.map (·.name) = earlier.map (·.name)) (description : String) :
    decl.KeepsRules earlier ↔
      nameProblems registry decl = [] ∧
        ∃ desc, decl.describe decl.typeBlock? description = .ok desc := by
  have hfresh : registry.claims decl.name = false ↔
      ∀ other ∈ earlier, Text.lowerCase other.name ≠ Text.lowerCase decl.name := by
    rw [EnumRegistry.claims_eq_false]
    have hforall := congrArg
      (fun names => ∀ name ∈ names, Text.lowerCase name ≠ Text.lowerCase decl.name) hnames
    simpa only [List.forall_mem_map, eq_iff_iff] using hforall
  rw [nameProblems_eq_nil, hfresh, isEnumName_iff, exists_describe_iff]
  constructor
  · intro h
    obtain ⟨first, hfirst⟩ := List.exists_mem_of_ne_nil _ h.has_members
    obtain ⟨base, hbase⟩ := Option.isSome_iff_exists.mp (h.constant first hfirst)
    refine ⟨⟨h.fresh, h.name_valid⟩, h.type_known, h.has_members, base, fun m hm => ?_,
      fun other hother => ?_⟩
    · rw [h.uniform m hm first hfirst, hbase]
    · have hdeclared := h.as_declared other hother first hfirst
      rw [hbase, Option.some.injEq] at hdeclared
      exact hdeclared.symm
  · rintro ⟨⟨hfresh, hname⟩, hknown, hmembers, base, hbase, hother⟩
    exact {
      name_valid := hname
      fresh := hfresh
      type_known := hknown
      has_members := hmembers
      constant := fun m hm => by rw [hbase m hm, Option.isSome_some]
      uniform := fun m hm other hmem => (hbase m hm).trans (hbase other hmem).symm
      as_declared := fun other h m hm => by rw [hother other h, hbase m hm] }

end EnumDecl

-- ════════════════════════════════════════════════════════════════════════
-- Registrations
-- ════════════════════════════════════════════════════════════════════════

namespace Registration

/-- The diagnostics for the problems of the declaration. -/
def diagnostics (file : String) (r : Registration) : List Diagnostic :=
  r.problems.map (EnumRegistry.diagnostic file r.decl)

/-- The declaration is registered as the rules say, and what keeps it from being valid is reported. -/
structure IsDecided (file : String) (earlier : List EnumDecl) (r : Registration) : Prop where
  valid_iff : (∃ desc, r.entry = .valid desc) ↔ r.decl.KeepsRules earlier
  valid : ∀ desc, r.entry = .valid desc →
    desc.name = r.decl.name ∧
      List.Forall₂ EnumMember.IsOf r.decl.members desc.members ∧
      (∀ m ∈ r.decl.members, m.base? = some desc.base) ∧
      r.diagnostics file = []
  invalid : ∀ name reason, r.entry = .invalid name reason →
    name = r.decl.name ∧
      (∃ first ∈ (r.diagnostics file).head?, first.message = reason) ∧
      ∀ d ∈ r.diagnostics file, d.severity = .error ∧ d.subject = .enum ∧
        d.subjectName = r.decl.name ∧ d.line = r.decl.line ∧ d.file = some file

end Registration

/-- A declaration is registered as the rules say behind entries for the earlier declarations. -/
theorem EnumDecl.registration?_isDecided {registry : EnumRegistry} {earlier : List EnumDecl}
    {decl : EnumDecl} {r : Registration} (file : String)
    (hnames : registry.entries.map (·.name) = earlier.map (·.name))
    (h : decl.registration? registry = some r) : r.IsDecided file earlier := by
  obtain ⟨description, hcases⟩ := registration?_cases h
  have hrules := keepsRules_iff decl hnames description
  rcases hcases with ⟨desc, hnone, hdescribe, rfl⟩ | ⟨hrefused, first, more, rfl⟩
  · obtain ⟨_, base, _, _, hbase, _, rfl⟩ := describe_eq_ok_iff.mp hdescribe
    have hconstant : ∀ m ∈ decl.members, m.base?.isSome = true := fun m hm => by
      rw [hbase m hm, Option.isSome_some]
    refine ⟨iff_of_true ⟨_, rfl⟩ (hrules.mpr ⟨hnone, _, hdescribe⟩), ?_, nofun⟩
    intro desc hdesc
    obtain rfl := RegisteredEnum.valid.inj hdesc
    exact ⟨rfl, (goodMembers_forall₂ hconstant).imp fun _ _ hm => hm.1, hbase, rfl⟩
  · have hbroken : ¬ decl.KeepsRules earlier := by
      rw [hrules]
      rintro ⟨hnone, desc, hdescribe⟩
      obtain ⟨more, herror⟩ := hrefused hnone
      rw [hdescribe] at herror
      cases herror
    refine ⟨iff_of_false nofun hbroken, nofun, ?_⟩
    intro name reason hentry
    obtain ⟨rfl, rfl⟩ := RegisteredEnum.invalid.inj hentry
    refine ⟨rfl, ⟨_, rfl, rfl⟩, fun d hd => ?_⟩
    obtain ⟨problem, _, rfl⟩ := List.mem_map.mp hd
    exact ⟨rfl, rfl, rfl, rfl, rfl⟩

namespace SourceUnit

theorem registrations_names {unit : SourceUnit} {rs : List Registration}
    (h : ∀ r ∈ rs, r ∈ unit.registrations) :
    (rs.map (·.entry)).map (·.name) = (rs.map (·.decl)).map (·.name) := by
  rw [List.map_map, List.map_map]
  refine List.map_congr_left fun r hr => ?_
  obtain ⟨_, hsound⟩ := exists_isSound (h r hr)
  exact hsound.name_eq

/-- The tagged declarations of a file are registered one by one, in order. Each is registered as the
rules say behind the earlier ones, and what is reported is what the declarations have for
diagnostics. -/
theorem scan_decides (unit : SourceUnit) :
    ∃ rs : List Registration,
      rs.map (·.decl) = unit.taggedEnums ∧
      (EnumRegistry.scan unit).1.entries = rs.map (·.entry) ∧
      (EnumRegistry.scan unit).2 = rs.flatMap (·.diagnostics unit.displayPath) ∧
      ∀ earlier r later, rs = earlier ++ r :: later →
        r.IsDecided unit.displayPath (earlier.map (·.decl)) := by
  refine ⟨unit.registrations, unit.registrations_decls, by rw [scan_eq], by rw [scan_eq]; rfl, ?_⟩
  intro earlier r later hsplit
  obtain ⟨decl, hdecl⟩ := EnumRegistry.registrations_of_split .empty unit.enums earlier r later hsplit
  have hearlier : ∀ other ∈ earlier, other ∈ unit.registrations := by
    intro other hother
    rw [hsplit]
    exact List.mem_append_left _ hother
  exact EnumDecl.registration?_isDecided unit.displayPath (registrations_names hearlier) hdecl

end SourceUnit

end CustomFunctions
