import CustomFunctions.Proofs.ValueType.Resolution

/-!
# The shape of resolved types

A resolved type has arrays of one or two dimensions only, whose elements are scalar, it mentions only
enums that a look-up finds as valid, only streams have a type argument, and cell values stand neither
in results nor in what a stream delivers. Three array levels are refused.

## Main definitions

- `ValueType.IsWellFormed` — what holds of all parts of a type
- `ArraySpelling` — the ways to write an array level
- `ValueType.resolve_isWellFormed` — resolved types are well formed
-/

namespace CustomFunctions

/-- The ways to write an array level around a type. -/
inductive ArraySpelling where
  | brackets
  | array
  | readonlyArray

/-- The type with an array level around it. -/
def ArraySpelling.around : ArraySpelling → TypeExpr → TypeExpr
  | brackets, e => .array e
  | array, e => .generic "Array" [e]
  | readonlyArray, e => .generic "ReadonlyArray" [e]

namespace ValueType

/-- The type and the types in it, at any depth. -/
def parts : ValueType → List ValueType
  | array element dimensions => array element dimensions :: element.parts
  | invocationOf kind result => invocationOf kind result :: result.parts
  | type => [type]

/-- The types that the elements of an array can have. -/
inductive IsElement : ValueType → Prop where
  | boolean : IsElement .boolean
  | number : IsElement .number
  | string : IsElement .string
  | any : IsElement .any
  | object : IsElement .object
  | cellValue (kind : CellValueKind) : IsElement (.cellValue kind)

/-- What holds of all parts of a type that is resolved at a position. -/
structure IsWellFormed (registry : EnumRegistry) (position : Position) (type : ValueType) :
    Prop where
  arrays : ∀ element dimensions, .array element dimensions ∈ type.parts →
    (dimensions = 1 ∨ dimensions = 2) ∧ element.IsElement
  enums : ∀ name base, .enum name base ∈ type.parts →
    ∃ desc, registry.find? name = some (.valid desc) ∧ desc.name = name ∧ desc.base = base
  arguments : ∀ kind result, .invocationOf kind result ∈ type.parts → kind = .streaming
  results : position = .result → ∀ kind, .cellValue kind ∉ type.parts
  streams : ∀ kind result, .invocationOf kind result ∈ type.parts →
    ∀ cell, .cellValue cell ∉ result.parts

variable {registry : EnumRegistry} {position : Position}

-- ════════════════════════════════════════════════════════════════════════
-- Types without parts
-- ════════════════════════════════════════════════════════════════════════

/-- The type has no parts and is neither an enum nor a cell value. -/
def isPlain : ValueType → Bool
  | enum _ _ => false
  | cellValue _ => false
  | array _ _ => false
  | invocationOf _ _ => false
  | _ => true

theorem IsWellFormed.of_isPlain {type : ValueType} (h : type.isPlain = true) :
    type.IsWellFormed registry position := by
  cases type with
  | enum | cellValue | array | invocationOf => cases h
  | _ => constructor <;> simp [parts]

theorem IsWellFormed.anyArray : IsWellFormed registry position (.array .any 1) where
  arrays element dimensions h := by
    simp only [parts, List.mem_cons, array.injEq, reduceCtorEq, List.not_mem_nil, or_false] at h
    obtain ⟨rfl, rfl⟩ := h
    exact ⟨.inl rfl, .any⟩
  enums := by simp [parts]
  arguments := by simp [parts]
  results := by simp [parts]
  streams := by simp [parts]

theorem IsWellFormed.of_cellValue (kind : CellValueKind) :
    IsWellFormed registry .parameter (.cellValue kind) := by
  constructor <;> simp [parts]

theorem ofKeyword?_isWellFormed {name : String} {type : ValueType}
    (h : ofKeyword? name = some type) : type.IsWellFormed registry position := by
  unfold ofKeyword? at h
  repeat' split at h
  all_goals
    first
    | cases h
      done
    | obtain rfl := Option.some.inj h
      first | exact .anyArray | exact .of_isPlain rfl

theorem ofLiteral_isWellFormed (kind : LiteralKind) :
    (ofLiteral kind).IsWellFormed registry position := by
  cases kind <;> exact .of_isPlain rfl

/-- A look-up finds an entry by its own name. -/
theorem IsWellFormed.of_find? {desc : CustomEnum} (h : registry.find? desc.name = some (.valid desc)) :
    IsWellFormed registry position (.enum desc.name desc.base) where
  arrays := by simp [parts]
  enums name base hmem := by
    simp only [parts, List.mem_singleton, enum.injEq] at hmem
    obtain ⟨rfl, rfl⟩ := hmem
    exact ⟨desc, h, rfl, rfl⟩
  arguments := by simp [parts]
  results := by simp [parts]
  streams := by simp [parts]

theorem ofEnum_isWellFormed (name : String) :
    (ofEnum name (registry.find? name)).IsWellFormed registry position := by
  cases hfind : registry.find? name with
  | none => exact .of_isPlain rfl
  | some entry =>
    cases entry with
    | invalid _ _ => exact .of_isPlain rfl
    | valid desc =>
      obtain rfl : desc.name = name := of_decide_eq_true (Option.filter_eq_some_iff.mp hfind).2
      exact .of_find? hfind

theorem ofName_isWellFormed (position : Position) (name : String) :
    (ofName registry position name).IsWellFormed registry position := by
  unfold ofName
  split
  · next hkeyword => exact ofKeyword?_isWellFormed hkeyword
  · split
    · exact .of_isPlain rfl
    · split
      · split
        · next hposition => exact hposition ▸ .of_cellValue _
        · exact .of_isPlain rfl
      · exact ofEnum_isWellFormed name

-- ════════════════════════════════════════════════════════════════════════
-- Types with parts
-- ════════════════════════════════════════════════════════════════════════

theorem isElement_of_isScalar {type : ValueType} (h : type.isScalar = true) : type.IsElement := by
  cases type with
  | enum | array | invocation | invocationOf | unsupported => cases h
  | boolean => exact .boolean
  | number => exact .number
  | string => exact .string
  | any => exact .any
  | object => exact .object
  | cellValue kind => exact .cellValue kind

/-- An array is well formed if it has one or two dimensions and a scalar element that is. -/
theorem IsWellFormed.array {element : ValueType} {dimensions : Nat}
    (h : element.IsWellFormed registry position) (hscalar : element.isScalar = true)
    (hpos : 1 ≤ dimensions) (hmax : dimensions ≤ maxDimensions) :
    IsWellFormed registry position (.array element dimensions) where
  arrays inner n hmem := by
    rw [parts, List.mem_cons] at hmem
    rcases hmem with heq | hmem
    · obtain ⟨rfl, rfl⟩ := array.inj heq
      rw [maxDimensions] at hmax
      exact ⟨by omega, isElement_of_isScalar hscalar⟩
    · exact h.arrays inner n hmem
  enums name base hmem := h.enums name base (by simpa [parts] using hmem)
  arguments kind result hmem := h.arguments kind result (by simpa [parts] using hmem)
  results hresult kind := by simpa [parts] using h.results hresult kind
  streams kind result hmem := h.streams kind result (by simpa [parts] using hmem)

/-- A stream is well formed if what it delivers is, as a result. -/
theorem IsWellFormed.stream {result : ValueType} (h : result.IsWellFormed registry .result) :
    IsWellFormed registry position (.invocationOf .streaming result) where
  arrays element n hmem := h.arrays element n (by simpa [parts] using hmem)
  enums name base hmem := h.enums name base (by simpa [parts] using hmem)
  arguments kind inner hmem := by
    rw [parts, List.mem_cons] at hmem
    rcases hmem with heq | hmem
    · exact (invocationOf.inj heq).1
    · exact h.arguments kind inner hmem
  results _ kind := by simpa [parts] using h.results rfl kind
  streams kind inner hmem := by
    rw [parts, List.mem_cons] at hmem
    rcases hmem with heq | hmem
    · obtain ⟨_, rfl⟩ := invocationOf.inj heq
      exact h.results rfl
    · exact h.streams kind inner hmem

theorem passesOn_isWellFormed (registry : EnumRegistry) :
    PassesOn registry fun position type => type.IsWellFormed registry position where
  name := ofName_isWellFormed
  literal _ := ofLiteral_isWellFormed
  object _ := .of_isPlain rfl
  any _ := .of_isPlain rfl
  unsupported _ _ := .of_isPlain rfl
  array _ _ _ := .array
  stream _ _ := .stream

-- ════════════════════════════════════════════════════════════════════════
-- Array levels
-- ════════════════════════════════════════════════════════════════════════

theorem element?_around (spelling : ArraySpelling) (e : TypeExpr) :
    (spelling.around e).element? = some e := by
  cases spelling <;> rfl

theorem le_arrayDepth (levels : List ArraySpelling) (e : TypeExpr) :
    levels.length ≤ (levels.foldr ArraySpelling.around e).arrayDepth := by
  induction levels with
  | nil => exact Nat.zero_le _
  | cons spelling levels ih =>
    rw [List.foldr_cons, TypeExpr.arrayDepth, TypeExpr.core_of_element (element?_around spelling _)]
    exact Nat.succ_le_succ ih

/-- More array levels than the host knows are refused. -/
theorem resolve_of_lt_arrayDepth {e element : TypeExpr} (helement : e.element? = some element)
    (h : maxDimensions < e.arrayDepth) :
    ∃ reason, resolve registry position e = .unsupported reason := by
  rw [resolve]
  split
  · rw [if_neg (Nat.not_le.mpr h)]
    exact ⟨_, rfl⟩
  · next hnone =>
    rw [helement] at hnone
    cases hnone

/-- Every resolved type is well formed, and an expression with three or more array levels, in any mix
of spellings, is refused. -/
theorem resolve_isWellFormed (registry : EnumRegistry) (position : Position) (e : TypeExpr) :
    (resolve registry position e).IsWellFormed registry position ∧
      ∀ (levels : List ArraySpelling) (element : TypeExpr), 3 ≤ levels.length →
        e = levels.foldr ArraySpelling.around element →
          ∃ reason, resolve registry position e = .unsupported reason := by
  refine ⟨resolve_induction (passesOn_isWellFormed registry) position e, ?_⟩
  rintro levels element hlevels rfl
  obtain ⟨spelling, rest, rfl⟩ := List.exists_cons_of_length_pos (Nat.lt_of_lt_of_le (by decide) hlevels)
  exact resolve_of_lt_arrayDepth (element?_around spelling _)
    (Nat.lt_of_lt_of_le hlevels (le_arrayDepth (spelling :: rest) element))

end ValueType

end CustomFunctions
