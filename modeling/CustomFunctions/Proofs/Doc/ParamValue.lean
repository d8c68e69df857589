import CustomFunctions.Proofs.Doc.TypeBlock

/-!
# Values of parameter tags

The value of a parameter tag is read back as it was written: a type block, which may be missing, a name,
which may stand in brackets, and a description behind it. A default value behind the name is read back
exactly if it holds no closing bracket. At a closing bracket the default value ends, and what stands
behind that bracket is taken for the description.

## Main definitions

- `TypeBlock.around` — the block around a type, if there is a type
- `ParamDraft` — the value of a parameter tag as its author means it, without a default value
- `ParamTag.read?_draft` — a draft is read back
- `ParamTag.inBrackets` — a value with a type block and with a name and a default value in brackets
- `ParamTag.read?_default_iff` — when a default value is read back
-/

namespace CustomFunctions

open Text

/-- Trimming takes blanks only. -/
theorem Text.mem_trim_iff {c : Char} (h : isBlank c = false) (s : List Char) :
    c ∈ trim s ↔ c ∈ s := by
  obtain ⟨before, after, hbefore, hafter, hs⟩ := exists_trim s
  have hnot : ∀ blanks : List Char, (∀ b ∈ blanks, isBlank b = true) → c ∉ blanks := by
    intro blanks hblanks hc
    rw [hblanks c hc] at h
    cases h
  calc c ∈ trim s ↔ c ∈ before ++ (trim s ++ after) := by
        simp [hnot before hbefore, hnot after hafter]
    _ ↔ c ∈ s := by rw [← hs]

-- ════════════════════════════════════════════════════════════════════════
-- Type blocks in front
-- ════════════════════════════════════════════════════════════════════════

/-- The block around a type, if there is a type. -/
def TypeBlock.around : Option (List Char) → List Char
  | none => []
  | some type => '{' :: (type ++ ['}'])

/-- A block in front of a text is taken off with the blanks behind it. -/
theorem TypeBlock.split_around {type? : Option (List Char)} {gap rest : List Char} {c : Char}
    (htype : ∀ type ∈ type?, IsBalanced type) (hgap : ∀ b ∈ gap, isBlank b = true)
    (hblank : isBlank c = false) (hbrace : c ≠ '{') :
    split (around type? ++ (gap ++ c :: rest)) = (type?.map trim, c :: rest) := by
  have htrim : trimStart (gap ++ c :: rest) = c :: rest := by
    rw [trimStart_append, if_pos (trimStart_of_blank hgap), trimStart_cons hblank]
  cases type? with
  | none =>
    unfold split
    rw [around, List.nil_append, htrim]
    split
    · next heq => exact absurd (List.cons.inj heq).1 hbrace
    · rfl
  | some type =>
    have hvalue : around (some type) ++ (gap ++ c :: rest) =
        '{' :: (type ++ '}' :: (gap ++ c :: rest)) := by
      simp [around]
    rw [hvalue, split_block (htype type rfl), htrim]
    rfl

namespace ParamTag

-- ════════════════════════════════════════════════════════════════════════
-- Names
-- ════════════════════════════════════════════════════════════════════════

section

variable {mark : Char} {before after s : List Char}

theorem cutAt?_append (h : mark ∉ before) :
    cutAt? mark (before ++ mark :: after) = some (before, after) := by
  induction before with
  | nil => exact if_pos rfl
  | cons c before ih =>
    obtain ⟨hc, hbefore⟩ := not_or.mp (mt List.mem_cons.mpr h)
    rw [List.cons_append, cutAt?, if_neg (Ne.symm hc), ih hbefore]
    rfl

theorem cutAt?_eq_none (h : mark ∉ s) : cutAt? mark s = none := by
  induction s with
  | nil => rfl
  | cons c s ih =>
    obtain ⟨hc, hs⟩ := not_or.mp (mt List.mem_cons.mpr h)
    rw [cutAt?, if_neg (Ne.symm hc), ih hs]
    rfl

end

variable {type? default? : Option (List Char)} {value : String} {name written after : List Char}

theorem bracketed?_name (hclose : ']' ∉ name) (hequals : '=' ∉ name) (after : List Char) :
    bracketed? (name ++ ']' :: after) = some (trim name, none, after) := by
  rw [bracketed?, cutAt?_append hclose, Option.map_some]
  dsimp only
  rw [cutAt?_eq_none hequals]

theorem bracketed?_default (hclose : ']' ∉ name) (hequals : '=' ∉ name) (hwritten : ']' ∉ written)
    (after : List Char) :
    bracketed? (name ++ '=' :: (written ++ ']' :: after)) =
      some (trim name, some (trim written), after) := by
  have hcontent : name ++ '=' :: (written ++ ']' :: after) =
      (name ++ '=' :: written) ++ ']' :: after := by
    simp
  have hnone : ']' ∉ name ++ '=' :: written := by
    simp [hclose, hwritten]
  rw [bracketed?, hcontent, cutAt?_append hnone, Option.map_some]
  dsimp only
  rw [cutAt?_append hequals]

/-- The tag that tells these parts, with the description that the text behind the name holds. -/
def ofParts (type? : Option (List Char)) (name : List Char) (optional : Bool)
    (default? : Option (List Char)) (after : List Char) : ParamTag where
  typeText := type?.map String.ofList
  name := String.ofList name
  optional := optional
  defaultText := default?.map String.ofList
  description := String.ofList (TypeBlock.description after)

/-- Behind an opening bracket the name of an optional parameter is read. -/
theorem read?_of_bracketed {inner : List Char}
    (hsplit : TypeBlock.split value.toList = (type?, '[' :: inner))
    (hinner : bracketed? inner = some (name, default?, after)) (hname : name ≠ []) :
    read? value = some (.ofParts type? name true default? after) := by
  have hstart : trimStart ('[' :: inner) = '[' :: inner := trimStart_cons (by decide) inner
  unfold read?
  simp only [hsplit, hstart, hinner, Option.map_some]
  exact if_neg hname

/-- A name without brackets is read up to the next blank. -/
theorem read?_of_word (hsplit : TypeBlock.split value.toList = (type?, name ++ after))
    (hname : ∀ c ∈ name, isBlank c = false) (hbracket : '[' ∉ name) (hne : name ≠ [])
    (hafter : ∀ c ∈ after.head?, isBlank c = true) :
    read? value = some (.ofParts type? name false none after) := by
  have hword : ∀ c ∈ name, (! isBlank c) = true := fun c hc => by rw [hname c hc]; rfl
  have hend : ∀ c ∈ after.head?, (! isBlank c) = false := fun c hc => by rw [hafter c hc]; rfl
  obtain ⟨htake, hdrop⟩ := takeWhile_dropWhile_append hword hend
  have hstart : trimStart (name ++ after) = name ++ after := by
    rw [trimStart_append, (isTrimmed_of_no_blank hne hname).start, if_neg hne]
  have hbare : ∀ inner, name ++ after ≠ '[' :: inner := by
    intro inner heq
    cases name with
    | nil => exact hne rfl
    | cons c name => exact hbracket ((List.cons.inj heq).1 ▸ List.mem_cons_self)
  unfold read?
  rw [hsplit]
  dsimp only
  rw [hstart]
  split
  · next found heq =>
    split at heq
    · next inner hcons => exact absurd hcons (hbare inner)
    · rw [htake, hdrop] at heq
      cases heq
      exact if_neg hne
  · next heq =>
    split at heq
    · next inner hcons => exact absurd hcons (hbare inner)
    · cases heq

end ParamTag

-- ════════════════════════════════════════════════════════════════════════
-- Drafts
-- ════════════════════════════════════════════════════════════════════════

/-- The value of a parameter tag as its author means it, without a default value. -/
structure ParamDraft where
  /-- The type in the block in front, if there is a block. -/
  type? : Option String
  /-- What stands between the block and the name. -/
  gap : String := " "
  name : String
  /-- Does the name stand in brackets? -/
  optional : Bool := false
  /-- What stands behind the name. -/
  rest : String
  type_balanced : ∀ type ∈ type?, TypeBlock.IsBalanced type.toList := by decide +kernel
  gap_blank : gap.toList.all isBlank = true := by decide +kernel
  name_ne_empty : name ≠ "" := by decide +kernel
  name_unbroken : name.toList.any isBlank = false := by decide +kernel
  name_plain : '[' ∉ name.toList ∧ ']' ∉ name.toList ∧ '{' ∉ name.toList ∧ '=' ∉ name.toList := by
    decide +kernel
  rest_apart : rest.toList.head?.all isBlank = true := by decide +kernel

namespace ParamDraft

variable (d : ParamDraft)

/-- The name as it is written. -/
def writtenName : List Char :=
  if d.optional then '[' :: (d.name.toList ++ [']']) else d.name.toList

/-- The value of the tag. -/
def text : String :=
  String.ofList (TypeBlock.around (d.type?.map String.toList) ++
    (d.gap.toList ++ (d.writtenName ++ d.rest.toList)))

theorem isBlank_of_mem_name : ∀ c ∈ d.name.toList, isBlank c = false := by
  simpa using d.name_unbroken

theorem name_isTrimmed : IsTrimmed d.name.toList :=
  isTrimmed_of_no_blank (mt String.toList_eq_nil_iff.mp d.name_ne_empty) d.isBlank_of_mem_name

/-- The block is taken off, and the name begins the text behind it. -/
theorem split_text : TypeBlock.split d.text.toList =
    ((d.type?.map String.toList).map trim, d.writtenName ++ d.rest.toList) := by
  have htype : ∀ type ∈ d.type?.map String.toList, TypeBlock.IsBalanced type := by
    intro type h
    obtain ⟨written, hwritten, rfl⟩ := Option.map_eq_some_iff.mp h
    exact d.type_balanced written hwritten
  obtain ⟨c, name, hname, hblank, hbrace⟩ : ∃ c name, d.writtenName = c :: name ∧
      isBlank c = false ∧ c ≠ '{' := by
    unfold writtenName
    cases d.optional with
    | true => exact ⟨'[', _, rfl, by decide, by decide⟩
    | false =>
      obtain ⟨c, name, hname⟩ := List.exists_cons_of_ne_nil d.name_isTrimmed.ne_nil
      have hc : c ∈ d.name.toList := hname ▸ List.mem_cons_self
      exact ⟨c, name, hname, d.isBlank_of_mem_name c hc,
        ne_of_mem_of_not_mem hc d.name_plain.2.2.1⟩
  rw [text, String.toList_ofList, hname]
  exact TypeBlock.split_around htype (List.all_eq_true.mp d.gap_blank) hblank hbrace

/-- What the value tells. -/
def told : ParamTag :=
  .ofParts ((d.type?.map String.toList).map trim) d.name.toList d.optional none d.rest.toList

theorem read?_text : ParamTag.read? d.text = some d.told := by
  have hsplit := d.split_text
  unfold writtenName at hsplit
  unfold told
  cases hoptional : d.optional with
  | true =>
    rw [hoptional, if_pos rfl, List.cons_append, List.append_assoc] at hsplit
    have hinner := ParamTag.bracketed?_name d.name_plain.2.1 d.name_plain.2.2.2 d.rest.toList
    rw [d.name_isTrimmed.trim_eq] at hinner
    exact ParamTag.read?_of_bracketed hsplit hinner d.name_isTrimmed.ne_nil
  | false =>
    have hrest : ∀ c ∈ d.rest.toList.head?, isBlank c = true := by
      intro c hc
      have hall := d.rest_apart
      rwa [hc] at hall
    rw [hoptional, if_neg Bool.false_ne_true] at hsplit
    exact ParamTag.read?_of_word hsplit d.isBlank_of_mem_name d.name_plain.1
      d.name_isTrimmed.ne_nil hrest

end ParamDraft

namespace ParamTag

/-- What an author means by a type block, a name and the text behind it is read back, and a type block
is taken off whatever stands behind it. -/
theorem read?_draft :
    (∀ d : ParamDraft, read? d.text = some {
      typeText := d.type?.map fun type => String.ofList (trim type.toList)
      name := d.name
      optional := d.optional
      defaultText := none
      description := String.ofList (TypeBlock.description d.rest.toList) }) ∧
    (∀ type : List Char, TypeBlock.IsBalanced type → ∀ rest,
      TypeBlock.split ('{' :: (type ++ '}' :: rest)) = (some (trim type), trimStart rest)) := by
  constructor
  · intro d
    rw [d.read?_text, ParamDraft.told, ofParts, String.ofList_toList, Option.map_map, Option.map_map]
    rfl
  · intro type htype rest
    exact TypeBlock.split_block htype rest

/-- A type with nested braces and, on the next line, a name with letters that are not ASCII, in
brackets. -/
def boxDraft : ParamDraft where
  type? := some " \x7b größe: \x7b höhe: number \x7d \x7d "
  gap := "\n  "
  name := "kästchen"
  optional := true
  rest := " - The box"

/-- The parameter of the box is read back, and its type block is taken off before an open brace. -/
theorem read?_draft_box :
    boxDraft.text = "\x7b \x7b größe: \x7b höhe: number \x7d \x7d \x7d\n  [kästchen] - The box" ∧
      read? boxDraft.text = some {
        typeText := some "\x7b größe: \x7b höhe: number \x7d \x7d"
        name := "kästchen"
        optional := true
        defaultText := none
        description := "The box" } ∧
      TypeBlock.IsBalanced "\x7bé\x7d".toList ∧
      TypeBlock.split "\x7b\x7bé\x7d\x7d \x7b".toList = (some "\x7bé\x7d".toList, ['{']) := by
  have hbalanced : TypeBlock.IsBalanced "\x7bé\x7d".toList := by decide +kernel
  refine ⟨by decide +kernel, ?_, hbalanced, ?_⟩
  · rw [read?_draft.1 boxDraft]
    decide +kernel
  · have hsplit := read?_draft.2 _ hbalanced [' ', '{']
    exact hsplit

-- ════════════════════════════════════════════════════════════════════════
-- Default values
-- ════════════════════════════════════════════════════════════════════════

/-- What stands in the brackets behind the name. -/
def assignment : Option String → String
  | none => ""
  | some written => "=" ++ written

/-- A value with a type block and with a name, and a default value if there is one, in brackets. -/
def inBrackets (type name : String) (default? : Option String) (rest : String) : String :=
  "\x7b" ++ type ++ "\x7d [" ++ name ++ assignment default? ++ "]" ++ rest

section

variable {type name written rest : String}

theorem split_inBrackets (htype : TypeBlock.IsBalanced type.toList) (name : String)
    (default? : Option String) (rest : String) :
    TypeBlock.split (inBrackets type name default? rest).toList = (some (trim type.toList),
      '[' :: (name.toList ++ ((assignment default?).toList ++ ']' :: rest.toList))) := by
  have hvalue : (inBrackets type name default? rest).toList = '{' :: (type.toList ++ '}' ::
      ([' '] ++ '[' :: (name.toList ++ ((assignment default?).toList ++ ']' :: rest.toList)))) := by
    simp [inBrackets]
  rw [hvalue, TypeBlock.split_block htype]
  rfl

theorem read?_inBrackets_none (htype : TypeBlock.IsBalanced type.toList)
    (hname : IsTrimmed name.toList) (hequals : '=' ∉ name.toList) (hclose : ']' ∉ name.toList) :
    read? (inBrackets type name none rest) =
      some (.ofParts (some (trim type.toList)) name.toList true none rest.toList) := by
  have hinner := bracketed?_name hclose hequals rest.toList
  rw [hname.trim_eq] at hinner
  exact read?_of_bracketed (split_inBrackets htype name none rest) hinner hname.ne_nil

/-- The default value ends at the first closing bracket, whether that is its own or the one behind it. -/
theorem read?_inBrackets_some {front after : List Char} (htype : TypeBlock.IsBalanced type.toList)
    (hname : IsTrimmed name.toList) (hequals : '=' ∉ name.toList) (hclose : ']' ∉ name.toList)
    (hfirst : written.toList ++ ']' :: rest.toList = front ++ ']' :: after) (hfront : ']' ∉ front) :
    read? (inBrackets type name (some written) rest) =
      some (.ofParts (some (trim type.toList)) name.toList true (some (trim front)) after) := by
  have hinner := bracketed?_default hclose hequals hfront after
  have hsplit := split_inBrackets htype name (some written) rest
  have hwritten : (assignment (some written)).toList ++ ']' :: rest.toList =
      '=' :: (front ++ ']' :: after) := by
    rw [← hfirst]
    simp [assignment]
  rw [hwritten] at hsplit
  rw [hname.trim_eq] at hinner
  exact read?_of_bracketed hsplit hinner hname.ne_nil

/-- A default value in brackets leaves the rest of the tag as it is without one, and is told without the
blanks around it, exactly if it holds no closing bracket. Otherwise the part up to the first closing
bracket is told, and what stands behind that bracket is taken for the description. -/
theorem read?_default_iff (htype : TypeBlock.IsBalanced type.toList)
    (hname : IsTrimmed name.toList) (hequals : '=' ∉ name.toList) (hclose : ']' ∉ name.toList)
    (written rest : String) :
    ∃ plain told : ParamTag,
      read? (inBrackets type name none rest) = some plain ∧
        read? (inBrackets type name (some written) rest) = some told ∧
        plain.name = name ∧ plain.optional = true ∧
        plain.typeText = some (String.ofList (trim type.toList)) ∧
        (told = { plain with defaultText := some (String.ofList (trim written.toList)) } ↔
          ']' ∉ written.toList) ∧
        ∀ front back, written.toList = front ++ ']' :: back → ']' ∉ front →
          told = { plain with
            defaultText := some (String.ofList (trim front))
            description := String.ofList (TypeBlock.description (back ++ ']' :: rest.toList)) } := by
  have hmem : ']' ∈ written.toList ++ ']' :: rest.toList := by simp
  obtain ⟨front, after, hfirst, hfront⟩ := List.eq_append_cons_of_mem hmem
  have hread := read?_inBrackets_some htype hname hequals hclose hfirst hfront
  refine ⟨_, _, read?_inBrackets_none htype hname hequals hclose, hread, String.ofList_toList, rfl,
    rfl, ⟨fun htold hcut => ?_, fun hwhole => ?_⟩, ?_⟩
  · -- the bracket is no blank, so trimming keeps it in the default value
    have hdefault := Option.some.inj (congrArg ParamTag.defaultText htold)
    have htrim : trim front = trim written.toList := String.ofList_injective hdefault
    rw [← mem_trim_iff (by decide), ← htrim, mem_trim_iff (by decide)] at hcut
    exact hfront hcut
  · exact Option.some.inj
      (hread.symm.trans (read?_inBrackets_some htype hname hequals hclose rfl hwhole))
  · intro before back hwritten hbefore
    have hcut : written.toList ++ ']' :: rest.toList =
        before ++ ']' :: (back ++ ']' :: rest.toList) := by
      rw [hwritten, List.append_assoc]
      rfl
    have hsame := read?_inBrackets_some htype hname hequals hclose hcut hbefore
    exact Option.some.inj (hread.symm.trans hsame)

end

/-- A default value with blanks and an equals sign in it is read back. -/
theorem read?_default_iff_label :
    TypeBlock.IsBalanced "string".toList ∧ IsTrimmed "label".toList ∧
      '=' ∉ "label".toList ∧ ']' ∉ "label".toList ∧
      read? "\x7bstring\x7d [label= a = \"x\" ] - The label" = some {
        typeText := some "string"
        name := "label"
        optional := true
        defaultText := some "a = \"x\""
        description := "The label" } := by
  have htype : TypeBlock.IsBalanced "string".toList := by decide +kernel
  have hname : IsTrimmed "label".toList := ⟨by decide +kernel, by decide +kernel, by decide +kernel⟩
  have hequals : '=' ∉ "label".toList := by decide +kernel
  have hclose : ']' ∉ "label".toList := by decide +kernel
  refine ⟨htype, hname, hequals, hclose, ?_⟩
  obtain ⟨plain, told, hnone, hsome, _, _, _, hiff, _⟩ :=
    read?_default_iff htype hname hequals hclose " a = \"x\" " " - The label"
  have htold := hiff.mpr (by decide +kernel)
  have hvalue : inBrackets "string" "label" (some " a = \"x\" ") " - The label" =
      "\x7bstring\x7d [label= a = \"x\" ] - The label" := by decide +kernel
  have hread : read? (inBrackets "string" "label" none " - The label") =
      some ⟨some "string", "label", true, none, "The label"⟩ := by decide +kernel
  rw [← hvalue, hsome, htold, ← Option.some.inj (hread.symm.trans hnone)]
  decide +kernel

/-- The square brackets of the text match: none closes more than has been opened before, and all that
are opened are closed. -/
structure HasMatchedBrackets (s : List Char) : Prop where
  opened : ∀ front, front <+: s → front.count ']' ≤ front.count '['
  closed : s.count ']' = s.count '['

/-- An empty array as the default value is cut at its bracket. -/
theorem not_forall_read?_default :
    ¬ ∀ type name written rest : String, TypeBlock.IsBalanced type.toList → IsTrimmed name.toList →
      '=' ∉ name.toList → '[' ∉ name.toList → ']' ∉ name.toList →
        HasMatchedBrackets written.toList → rest.toList.head?.all isBlank = true →
          ∀ plain, read? (inBrackets type name none rest) = some plain →
            read? (inBrackets type name (some written) rest) =
              some { plain with defaultText := some (String.ofList (trim written.toList)) } := by
  intro h
  have hmatched : HasMatchedBrackets "[]".toList := by
    refine ⟨fun front hfront => ?_, by decide +kernel⟩
    have hinits : ∀ front ∈ "[]".toList.inits, front.count ']' ≤ front.count '[' := by decide +kernel
    exact hinits front ((List.mem_inits front _).mpr hfront)
  have hname : IsTrimmed "values".toList := ⟨by decide +kernel, by decide +kernel, by decide +kernel⟩
  have hread : read? (inBrackets "number[]" "values" none " The values") =
      some ⟨some "number[]", "values", true, none, "The values"⟩ := by decide +kernel
  have hfails := h "number[]" "values" "[]" " The values" (by decide +kernel) hname (by decide +kernel)
    (by decide +kernel) (by decide +kernel) hmatched (by decide +kernel) _ hread
  revert hfails
  decide +kernel

end ParamTag

end CustomFunctions
