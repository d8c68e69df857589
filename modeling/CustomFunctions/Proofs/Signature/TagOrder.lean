import CustomFunctions.Proofs.Signature.InlineTypes

/-!
# The order of tags

A candidate is made from the description of the comment and, for each kind of tag, from the values of the
tags of that kind in their order. So it does not matter how the tags of different kinds are mixed, or
which tags without a meaning stand between them. The lines of the tags are told in the diagnostics only.

## Main definitions

- `TagSet.values` — the values of the tags of one kind
- `TagSet.TellsAs` — tag sets that differ in the lines and in the order of tags of different kinds
- `Candidate.withoutLines` — a candidate whose diagnostics tell no lines
- `Candidate.ofDecl?_of_sameTags` — comments with the same tags of each kind make the same candidate
- `Candidate.ofDecl?_of_reordered` — the tags of a comment may be put in another order
-/

namespace CustomFunctions

open Text

/-- A tag of which only the value is known. -/
def Tag.ofValue (value : String) : Tag where
  name := ""
  kind := none
  value := value
  line := 0

def Diagnostic.withoutLine (d : Diagnostic) : Diagnostic :=
  { d with line := 0 }

namespace TagSet

/-- The values of the tags of one kind, in order. -/
def values (set : TagSet) (kind : TagKind) : List String :=
  (set.all kind).map (·.value)

/-- The sets have the same description and, for each kind, tags with the same values in the same
order. -/
structure TellsAs (set other : TagSet) : Prop where
  description : other.description = set.description
  values : ∀ kind, other.values kind = set.values kind

theorem first?_value (set : TagSet) (kind : TagKind) :
    (set.first? kind).map (·.value) = (set.values kind).head? := by
  rw [first?_eq, values, List.head?_map]

theorem has_eq (set : TagSet) (kind : TagKind) : set.has kind = (set.values kind).head?.isSome := by
  rw [has, ← first?_value, Option.isSome_map]

namespace TellsAs

variable {set other : TagSet}

theorem first?_value (h : set.TellsAs other) (kind : TagKind) :
    (other.first? kind).map (·.value) = (set.first? kind).map (·.value) := by
  rw [TagSet.first?_value, TagSet.first?_value, h.values]

theorem ofTags (h : set.TellsAs other) :
    FunctionOptions.ofTags other = FunctionOptions.ofTags set := by
  simp only [FunctionOptions.ofTags, has_eq, h.values]

end TellsAs

end TagSet

namespace Candidate

variable {registry : EnumRegistry} {decl : FunctionDecl} {set other : TagSet}

/-- A candidate whose diagnostics tell no lines. -/
def withoutLines (c : Candidate) : Candidate :=
  { c with diagnostics := c.diagnostics.map Diagnostic.withoutLine }

-- ════════════════════════════════════════════════════════════════════════
-- What is read from the values
-- ════════════════════════════════════════════════════════════════════════

/-- A parameter tag is read from its value, and its line stands in the warning only. -/
theorem readParamTag_eq (decl : FunctionDecl) (tag : Tag) :
    readParamTag decl tag =
      (readParamTag decl (.ofValue tag.value)).mapError fun d => { d with line := tag.line } := by
  unfold readParamTag tagDiagnostic Tag.ofValue
  cases ParamTag.read? tag.value with
  | none => rfl
  | some told =>
    dsimp only
    split
    · rfl
    · rfl

theorem paramTags_eq (decl : FunctionDecl) (set : TagSet) :
    paramTags decl set = (set.values .param).filterMap fun value =>
      match readParamTag decl (.ofValue value) with
      | .ok told => some told
      | .error _ => none := by
  rw [paramTags, TagSet.values, List.filterMap_map]
  congr 1
  funext tag
  rw [readParamTag_eq]
  dsimp only [Function.comp]
  cases readParamTag decl (.ofValue tag.value) <;> rfl

theorem paramWarnings_withoutLine (decl : FunctionDecl) (set : TagSet) :
    (paramWarnings decl set).map Diagnostic.withoutLine =
      (set.values .param).filterMap fun value =>
        match readParamTag decl (.ofValue value) with
        | .ok _ => none
        | .error d => some d.withoutLine := by
  rw [paramWarnings, TagSet.values, List.filterMap_map, List.map_filterMap]
  congr 1
  funext tag
  rw [readParamTag_eq]
  dsimp only [Function.comp]
  cases readParamTag decl (.ofValue tag.value) <;> rfl

theorem surplusWords_withoutLine (decl : FunctionDecl) (tag : Tag) (words : List (List Char)) :
    (surplusWords decl tag words).map Diagnostic.withoutLine =
      surplusWords decl (.ofValue tag.value) words := by
  unfold surplusWords
  split
  · rfl
  · rfl

theorem parameters_congr (h : set.TellsAs other) :
    parameters registry decl other = parameters registry decl set := by
  rw [parameters, parameters, paramTags_eq, paramTags_eq, h.values]

theorem options_congr (h : set.TellsAs other) (ps : List Parameter) :
    options other ps = options set ps := by
  rw [options, options, h.ofTags]

theorem result_congr (h : set.TellsAs other) (ps : List Parameter) :
    result registry decl other ps = result registry decl set ps := by
  have hwritten : ∀ tags : TagSet,
      ((tags.first? .returns).bind fun tag => (ReturnsTag.read tag.value).typeText) =
        ((tags.first? .returns).map (·.value)).bind fun value => (ReturnsTag.read value).typeText := by
    intro tags
    rw [Option.bind_map]
    rfl
  unfold result
  rw [hwritten, hwritten, h.first?_value]

-- ════════════════════════════════════════════════════════════════════════
-- Signatures
-- ════════════════════════════════════════════════════════════════════════

/-- The signature of a declaration whose tag `@customfunction` has the given value. -/
def signatureOf (registry : EnumRegistry) (decl : FunctionDecl) (tags : TagSet) (value : String) :
    Signature :=
  let words := Text.words value.toList
  let id := (words[0]?.map String.ofList).getD (Text.upperCase decl.name)
  let parameters := parameters registry decl tags
  { id
    name := (words[1]?.map String.ofList).getD id
    codeName := decl.name
    description := tags.description
    helpUrl := ((tags.first? .helpUrl).map (·.value)).map joinTrimmed
    parameters
    result := result registry decl tags parameters
    options := options tags parameters
    declaredReturn := decl.returnType?
    line := decl.line }

theorem ofDecl?_eq (registry : EnumRegistry) (decl : FunctionDecl) (doc : DocComment) :
    ofDecl? registry { decl with doc := some doc } =
      ((TagSet.ofComment doc).first? .customFunction).map fun tag => {
        signature := signatureOf registry decl (TagSet.ofComment doc) tag.value
        diagnostics := surplusWords decl tag (Text.words tag.value.toList) ++
          paramWarnings decl (TagSet.ofComment doc) } := by
  unfold ofDecl? signatureOf
  simp only [Option.bind_eq_bind, Option.bind_some, Option.map_map]
  cases (TagSet.ofComment doc).first? .customFunction with
  | none => rfl
  | some tag => rfl

theorem signatureOf_congr (h : set.TellsAs other) :
    signatureOf registry decl other = signatureOf registry decl set := by
  funext value
  unfold signatureOf
  dsimp only
  rw [h.description, h.first?_value, parameters_congr h, options_congr h, result_congr h]

/-- Tag sets with the same values of each kind make the same candidate, but for the lines. -/
theorem ofDecl?_withoutLines {doc other : DocComment}
    (h : (TagSet.ofComment doc).TellsAs (TagSet.ofComment other)) :
    (ofDecl? registry { decl with doc := some other }).map withoutLines =
      (ofDecl? registry { decl with doc := some doc }).map withoutLines := by
  have hvalue : ∀ doc : DocComment,
      (ofDecl? registry { decl with doc := some doc }).map withoutLines =
        (((TagSet.ofComment doc).first? .customFunction).map (·.value)).map fun value => {
          signature := signatureOf registry decl (TagSet.ofComment doc) value
          diagnostics := surplusWords decl (.ofValue value) (Text.words value.toList) ++
            (paramWarnings decl (TagSet.ofComment doc)).map Diagnostic.withoutLine } := by
    intro doc
    rw [ofDecl?_eq, Option.map_map, Option.map_map]
    congr 1
    funext tag
    dsimp only [Function.comp, withoutLines]
    rw [List.map_append, surplusWords_withoutLine]
  rw [hvalue, hvalue, h.first?_value, signatureOf_congr h, paramWarnings_withoutLine,
    paramWarnings_withoutLine, h.values]

end Candidate

-- ════════════════════════════════════════════════════════════════════════
-- Blocks of a comment
-- ════════════════════════════════════════════════════════════════════════

namespace TagBlock

/-- The kind of the tag, if it has a meaning. -/
def kind? (b : TagBlock) : Option TagKind :=
  TagKind.ofName? (String.ofList b.name)

theorem tag_kind (b : TagBlock) (line : Nat) : (b.tag line).kind = b.kind? := by
  rw [tag, kind?]

/-- The values of a kind are those of the blocks of that kind. -/
theorem tags_values (description : String) (kind : TagKind) (line : Nat) (blocks : List TagBlock) :
    (TagSet.mk description (tags line blocks)).values kind =
      (blocks.filter (·.kind? = some kind)).map fun b => String.ofList b.value := by
  unfold TagSet.values TagSet.all
  induction blocks generalizing line with
  | nil => rfl
  | cons b blocks ih =>
    dsimp only at ih ⊢
    rw [tags, List.filter_cons, List.filter_cons, tag_kind]
    split
    · rw [List.map_cons, List.map_cons, ih]
      rfl
    · exact ih _

end TagBlock

/-- The blocks of one kind may be mixed with those of other kinds in any way. -/
theorem Division.tellsAs {d e : Division} (hbefore : e.before = d.before)
    (hblocks : ∀ kind, e.blocks.filter (·.kind? = some kind) = d.blocks.filter (·.kind? = some kind))
    (line other : Nat) : (d.tagSet line).TellsAs (e.tagSet other) where
  description := by
    unfold tagSet description
    rw [hbefore]
  values kind := by
    unfold tagSet
    rw [TagBlock.tags_values, TagBlock.tags_values, hblocks]

namespace Candidate

/-- If the blocks of a comment are put in another order, in which those of each kind keep theirs, and
blocks of tags without a meaning are put in or left out, then the candidate stays the same, but for the
lines that its diagnostics tell. -/
theorem ofDecl?_of_reordered (registry : EnumRegistry) (decl : FunctionDecl) {doc other : DocComment}
    {d e : Division} (hdoc : d.lines = doc.lines.map String.toList)
    (hother : e.lines = other.lines.map String.toList) (hbefore : e.before = d.before)
    (hblocks : ∀ kind,
      e.blocks.filter (·.kind? = some kind) = d.blocks.filter (·.kind? = some kind)) :
    (ofDecl? registry { decl with doc := some other }).map withoutLines =
      (ofDecl? registry { decl with doc := some doc }).map withoutLines := by
  apply ofDecl?_withoutLines
  rw [TagSet.ofComment_eq hdoc, TagSet.ofComment_eq hother]
  exact Division.tellsAs hbefore hblocks doc.line other.line

/-- Comments with the same description and the same tags of each kind make the same candidate, however
the tags of different kinds and those without a meaning are mixed. If the tags of each kind have the same
values, but stand on other lines, then the candidates differ in the lines of their diagnostics only. -/
theorem ofDecl?_of_sameTags (registry : EnumRegistry) (decl : FunctionDecl) (doc other : DocComment)
    (hdescription : (TagSet.ofComment other).description = (TagSet.ofComment doc).description) :
    ((∀ kind, (TagSet.ofComment other).all kind = (TagSet.ofComment doc).all kind) →
      ofDecl? registry { decl with doc := some other } =
        ofDecl? registry { decl with doc := some doc }) ∧
    ((∀ kind, (TagSet.ofComment other).values kind = (TagSet.ofComment doc).values kind) →
      (ofDecl? registry { decl with doc := some other }).map withoutLines =
        (ofDecl? registry { decl with doc := some doc }).map withoutLines) := by
  constructor
  · intro hall
    have htells : (TagSet.ofComment doc).TellsAs (TagSet.ofComment other) :=
      ⟨hdescription, fun kind => by rw [TagSet.values, hall, TagSet.values]⟩
    rw [ofDecl?_eq, ofDecl?_eq, TagSet.first?_eq, TagSet.first?_eq, hall, signatureOf_congr htells,
      paramWarnings, paramWarnings, hall]
  · intro hvalues
    exact ofDecl?_withoutLines ⟨hdescription, hvalues⟩

/-- A function whose comment names a parameter that it does not have. -/
def area : FunctionDecl where
  name := "area"
  doc := none
  parameters := [{ name := "width" }, { name := "height" }]
  returnType? := none
  isAsync := false
  returnHints := []
  line := 9

def areaDoc : DocComment where
  lines := ["Area of a box.", "@customfunction", "@see volume", "@param width The width",
    "@param depth The depth", "@returns \x7bnumber\x7d The area"]
  line := 1

/-- The comment with another tag without a meaning. -/
def areaSince : DocComment where
  lines := ["Area of a box.", "@customfunction", "@since 1.2", "@param width The width",
    "@param depth The depth", "@returns \x7bnumber\x7d The area"]
  line := 1

/-- The comment with its tags in another order. -/
def areaReordered : DocComment where
  lines := ["Area of a box.", "@return \x7bnumber\x7d The area", "@param width The width",
    "@CustomFunction", "@param depth The depth"]
  line := 1

/-- The three comments make the same candidate, the last one but for the lines. -/
theorem ofDecl?_of_sameTags_area :
    (ofDecl? .empty { area with doc := some areaDoc }).isSome = true ∧
      ofDecl? .empty { area with doc := some areaSince } =
        ofDecl? .empty { area with doc := some areaDoc } ∧
      (ofDecl? .empty { area with doc := some areaReordered }).map withoutLines =
        (ofDecl? .empty { area with doc := some areaDoc }).map withoutLines := by
  have hall : ∀ kind ∈ TagKind.all,
      (TagSet.ofComment areaSince).all kind = (TagSet.ofComment areaDoc).all kind := by
    decide +kernel
  have hvalues : ∀ kind ∈ TagKind.all,
      (TagSet.ofComment areaReordered).values kind = (TagSet.ofComment areaDoc).values kind := by
    decide +kernel
  have hmade : (ofDecl? .empty { area with doc := some areaDoc }).isSome = true := by
    decide +kernel
  refine ⟨hmade, ?_, ?_⟩
  · exact (ofDecl?_of_sameTags .empty area areaDoc areaSince (by decide +kernel)).1
      fun kind => hall kind kind.mem_all
  · exact (ofDecl?_of_sameTags .empty area areaDoc areaReordered (by decide +kernel)).2
      fun kind => hvalues kind kind.mem_all

end Candidate

end CustomFunctions
