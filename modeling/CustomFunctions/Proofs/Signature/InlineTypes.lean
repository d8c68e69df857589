import CustomFunctions.Proofs.Doc.TypeBlock
import CustomFunctions.Signature.Candidate

/-!
# Types in tags and types in the code

A type means the same in a type block of a tag as it means as an annotation in the code. For a
parameter the whole candidate is the same, with all that is reported about it, and for the result the
resolved type is the same.

## Main definitions

- `TagSet.firstNaming?` — the tag that describes a parameter
- `TagSet.SameBut` — tag sets that differ in the tags of one kind, but not in which kinds they have
- `Candidate.ofDecl?_withType` — types in type blocks and in annotations
-/

namespace CustomFunctions

open Text

theorem TypeExpr.parse_trim (written : String) :
    parse (String.ofList (trim written.toList)) = parse written := by
  rw [parse, parse, String.toList_ofList, trim_trim]

namespace TagSet

/-- The first parameter tag that names the parameter. -/
def firstNaming? (tags : TagSet) (name : String) : Option Tag :=
  (tags.all .param).find? fun tag => (ParamTag.read? tag.value).any (·.name = name)

/-- Behind the tags in front, the tag is the first parameter tag that names the parameter, and it tells
what is given. -/
structure IsFirstNaming (front : List Tag) (tag : Tag) (told : ParamTag) (name : String) : Prop where
  kind : tag.kind = some .param
  reads : ParamTag.read? tag.value = some told
  named : told.name = name
  others : ∀ t ∈ front, t.kind = some .param → ∀ other, ParamTag.read? t.value = some other →
    other.name ≠ name

/-- The sets have the same description and the same kinds of tags, and the tags of all kinds but one
are the same. -/
structure SameBut (kind : TagKind) (set other : TagSet) : Prop where
  description : other.description = set.description
  has : ∀ k, other.has k = set.has k
  all : ∀ k, k ≠ kind → other.all k = set.all k

theorem first?_eq (set : TagSet) (kind : TagKind) : set.first? kind = (set.all kind).head? :=
  (List.head?_filter ..).symm

/-- The first tag of a kind comes behind tags of other kinds. -/
theorem exists_of_first? {tags : TagSet} {kind : TagKind} {tag : Tag}
    (h : tags.first? kind = some tag) :
    ∃ front back, tags.tags = front ++ tag :: back ∧ tag.kind = some kind ∧
      ∀ t ∈ front, t.kind ≠ some kind := by
  rw [first?, List.find?_eq_some_iff_append] at h
  obtain ⟨hkind, front, back, htags, hfront⟩ := h
  exact ⟨front, back, htags, of_decide_eq_true hkind, by simpa using hfront⟩

theorem first?_of_front {description : String} {front back : List Tag} {kind : TagKind} {tag : Tag}
    (hfront : ∀ t ∈ front, t.kind ≠ some kind) (hkind : tag.kind = some kind) :
    (TagSet.mk description (front ++ tag :: back)).first? kind = some tag := by
  rw [first?, List.find?_append, List.find?_eq_none.mpr (by simpa using hfront), Option.none_or]
  exact List.find?_cons_of_pos (decide_eq_true hkind)

theorem exists_of_firstNaming? {tags : TagSet} {name : String} {tag : Tag}
    (h : tags.firstNaming? name = some tag) :
    ∃ front back told, tags.tags = front ++ tag :: back ∧ IsFirstNaming front tag told name := by
  rw [firstNaming?, all, List.find?_filter, List.find?_eq_some_iff_append] at h
  obtain ⟨hfound, front, back, htags, hfront⟩ := h
  rw [decide_eq_true_eq, Option.any_eq_true] at hfound
  obtain ⟨hkind, told, htold, hname⟩ := hfound
  refine ⟨front, back, told, htags, of_decide_eq_true hkind, htold, of_decide_eq_true hname, ?_⟩
  intro t ht hparam other hother heq
  have hnot := hfront t ht
  simp [hparam, hother, heq] at hnot

namespace SameBut

variable {kind : TagKind} {set other : TagSet}

theorem first? (h : SameBut kind set other) {k : TagKind} (hk : k ≠ kind) :
    other.first? k = set.first? k := by
  rw [first?_eq, first?_eq, h.all k hk]

theorem ofTags (h : SameBut kind set other) :
    FunctionOptions.ofTags other = FunctionOptions.ofTags set := by
  simp only [FunctionOptions.ofTags, h.has]

end SameBut

/-- A tag that gains a type changes the tags of its kind only. -/
theorem sameBut_of_gainsType {type : List Char} {tag typed : Tag} {kind : TagKind}
    (h : tag.GainsType type typed) (hkind : tag.kind = some kind) (description : String)
    (front back : List Tag) :
    SameBut kind ⟨description, front ++ tag :: back⟩ ⟨description, front ++ typed :: back⟩ where
  description := rfl
  has k := by
    rw [has, has, first?, first?, List.isSome_find?, List.isSome_find?, List.any_append,
      List.any_append, List.any_cons, List.any_cons, h.kind]
  all k hk := by
    have hne : ¬ kind = k := fun heq => hk heq.symm
    simp [TagSet.all, List.filter_append, h.kind, hkind, hne]

end TagSet

namespace Candidate

variable {registry : EnumRegistry} {decl : FunctionDecl} {type : List Char} {tag typed : Tag}

-- ════════════════════════════════════════════════════════════════════════
-- Parameter tags
-- ════════════════════════════════════════════════════════════════════════

/-- What a parameter tag tells depends on the name of the function and the names of its parameters. -/
theorem readParamTag_congr {other : FunctionDecl} (hname : other.name = decl.name)
    (hnames : other.parameters.map (·.name) = decl.parameters.map (·.name)) :
    readParamTag other = readParamTag decl := by
  funext tag
  have hany : ∀ name : String,
      other.parameters.any (·.name = name) = decl.parameters.any (·.name = name) := by
    intro name
    have hmapped : ∀ ps : List ParameterDecl,
        ps.any (·.name = name) = (ps.map (·.name)).any (· = name) := by
      intro ps
      rw [List.any_map]
      rfl
    rw [hmapped, hmapped, hnames]
  unfold readParamTag tagDiagnostic
  simp only [hany, hname]

/-- A parameter tag that gains a type tells the same parameter, or raises the same warning. -/
theorem readParamTag_gainsType (h : tag.GainsType type typed)
    (hnone : (TypeBlock.split tag.value.toList).1 = none) :
    readParamTag decl typed = (readParamTag decl tag).map (ParamTag.withType type) := by
  unfold readParamTag tagDiagnostic
  rw [h.read? hnone, h.line]
  cases ParamTag.read? tag.value with
  | none => rfl
  | some told =>
    show (if decl.parameters.any (·.name = told.name) then _ else _) = _
    dsimp only
    split
    · rfl
    · rfl

section

variable (description : String) (front back : List Tag)

theorem paramTags_of_told {told : ParamTag} (hkind : tag.kind = some .param)
    (hread : readParamTag decl tag = .ok told) :
    paramTags decl ⟨description, front ++ tag :: back⟩ =
      paramTags decl ⟨description, front⟩ ++ told :: paramTags decl ⟨description, back⟩ := by
  unfold paramTags TagSet.all
  rw [List.filter_append, List.filterMap_append, List.filter_cons_of_pos (by simp [hkind]),
    List.filterMap_cons, hread]

theorem paramWarnings_gainsType {other : FunctionDecl}
    (hreads : readParamTag other = readParamTag decl) (h : tag.GainsType type typed)
    (hnone : (TypeBlock.split tag.value.toList).1 = none) :
    paramWarnings other ⟨description, front ++ typed :: back⟩ =
      paramWarnings decl ⟨description, front ++ tag :: back⟩ := by
  unfold paramWarnings TagSet.all
  rw [hreads, List.filter_append, List.filter_append, List.filterMap_append, List.filterMap_append,
    List.filter_cons, List.filter_cons, h.kind]
  split
  · rw [List.filterMap_cons, List.filterMap_cons, readParamTag_gainsType h hnone]
    cases readParamTag decl tag <;> rfl
  · rfl

end

theorem find?_named {before after : List ParamTag} {told : ParamTag} {name : String}
    (hbefore : ∀ t ∈ before, t.name ≠ name) (hname : told.name = name) :
    (before ++ told :: after).find? (·.name = name) = some told := by
  rw [List.find?_append, List.find?_eq_none.mpr (by simpa using hbefore), Option.none_or]
  exact List.find?_cons_of_pos (decide_eq_true hname)

theorem find?_other {before after : List ParamTag} {told : ParamTag} {name : String}
    (hname : told.name ≠ name) :
    (before ++ told :: after).find? (·.name = name) = (before ++ after).find? (·.name = name) := by
  rw [List.find?_append, List.find?_append, List.find?_cons_of_neg (by simpa using hname)]

theorem exists_of_mem_paramTags {tags : TagSet} {told : ParamTag} (h : told ∈ paramTags decl tags) :
    ∃ tag ∈ tags.all .param, ParamTag.read? tag.value = some told := by
  obtain ⟨tag, htag, hread⟩ := List.mem_filterMap.mp h
  refine ⟨tag, htag, ?_⟩
  split at hread
  · next parsed hparsed =>
    cases hread
    unfold readParamTag at hparsed
    split at hparsed
    · cases hparsed
    · next hvalue =>
      split at hparsed
      · rw [hvalue, Except.ok.inj hparsed]
      · cases hparsed
  · cases hread

/-- A type in the tag of a parameter without an annotation is taken as one in the code is without a type
in the tag. -/
theorem parameter_withType (registry : EnumRegistry) (p : ParameterDecl) {told : ParamTag}
    (hnone : told.typeText = none) (type : String) :
    parameter registry { p with type? := none } (some (told.withType type.toList)) =
      parameter registry { p with type? := some (.parse type) } (some told) := by
  have htag : (((some (told.withType type.toList)).bind (·.typeText)).map TypeExpr.parse).or none =
      some (TypeExpr.parse type) := congrArg some (TypeExpr.parse_trim type)
  have hcode : (((some told).bind (·.typeText)).map TypeExpr.parse).or (some (.parse type)) =
      some (TypeExpr.parse type) := by
    rw [Option.bind_some, hnone]
    rfl
  unfold parameter
  dsimp only
  rw [htag, hcode]
  rfl

/-- If the type of a parameter moves from the code to the first tag that names it, the parameters stay
as they are. -/
theorem parameters_gainsType {other : FunctionDecl} {p : ParameterDecl} {ps qs : List ParameterDecl}
    {type description : String} {front back : List Tag} {told : ParamTag}
    (hdecl : decl.parameters = ps ++ { p with type? := some (.parse type) } :: qs)
    (hother : other.parameters = ps ++ { p with type? := none } :: qs)
    (hreads : readParamTag other = readParamTag decl)
    (hunique : ∀ q ∈ ps ++ qs, q.name ≠ p.name)
    (hfirst : TagSet.IsFirstNaming front tag told p.name)
    (h : tag.GainsType type.toList typed) (hnone : (TypeBlock.split tag.value.toList).1 = none) :
    parameters registry other ⟨description, front ++ typed :: back⟩ =
      parameters registry decl ⟨description, front ++ tag :: back⟩ := by
  have hread : readParamTag decl tag = .ok told := by
    unfold readParamTag
    rw [hfirst.reads, hdecl]
    exact if_pos (by simp [hfirst.named])
  have htypedRead : readParamTag decl typed = .ok (told.withType type.toList) := by
    rw [readParamTag_gainsType h hnone, hread]
    rfl
  have hotherTags : ∀ tags, paramTags other tags = paramTags decl tags := by
    intro tags
    unfold paramTags
    rw [hreads]
  have htags := paramTags_of_told description front back hfirst.kind hread
  have htyped := paramTags_of_told description front back (h.kind.trans hfirst.kind) htypedRead
  have hbefore : ∀ t ∈ paramTags decl ⟨description, front⟩, t.name ≠ p.name := by
    intro t ht
    obtain ⟨s, hs, hvalue⟩ := exists_of_mem_paramTags ht
    rw [TagSet.all, List.mem_filter, decide_eq_true_eq] at hs
    exact hfirst.others s hs.1 hs.2 t hvalue
  -- the other parameters find what they found, and this one finds the tag with its type
  have hrest : ∀ q ∈ ps ++ qs,
      parameter registry q ((paramTags other ⟨description, front ++ typed :: back⟩).find?
          (·.name = q.name)) =
        parameter registry q ((paramTags decl ⟨description, front ++ tag :: back⟩).find?
          (·.name = q.name)) := by
    intro q hq
    have hne : told.name ≠ q.name := hfirst.named ▸ (hunique q hq).symm
    have htypedNe : (told.withType type.toList).name ≠ q.name := hne
    rw [hotherTags, htags, htyped, find?_other hne, find?_other htypedNe]
  have htypedNamed : (told.withType type.toList).name = p.name := hfirst.named
  rw [List.forall_mem_append] at hrest
  unfold parameters
  dsimp only
  rw [hdecl, hother, List.map_append, List.map_append, List.map_cons, List.map_cons,
    List.map_congr_left hrest.1, List.map_congr_left hrest.2]
  dsimp only
  rw [hotherTags, htyped, find?_named hbefore htypedNamed, htags, find?_named hbefore hfirst.named,
    parameter_withType registry p (ParamTag.typeText_of_no_block hfirst.reads hnone)]

-- ════════════════════════════════════════════════════════════════════════
-- Candidates
-- ════════════════════════════════════════════════════════════════════════

/-- Comments that differ in parameter tags make the same candidate, if the parameters and the warnings
are the same. -/
theorem ofDecl?_congr {doc other : DocComment} {ps qs : List ParameterDecl}
    (hsame : (TagSet.ofComment doc).SameBut .param (TagSet.ofComment other))
    (hparameters : parameters registry { decl with doc := some other, parameters := qs }
        (TagSet.ofComment other) =
      parameters registry { decl with doc := some doc, parameters := ps } (TagSet.ofComment doc))
    (hwarnings : paramWarnings { decl with doc := some other, parameters := qs }
        (TagSet.ofComment other) =
      paramWarnings { decl with doc := some doc, parameters := ps } (TagSet.ofComment doc)) :
    ofDecl? registry { decl with doc := some other, parameters := qs } =
      ofDecl? registry { decl with doc := some doc, parameters := ps } := by
  unfold ofDecl?
  simp only [Option.bind_eq_bind, Option.bind_some]
  rw [hsame.first? (by decide)]
  cases (TagSet.ofComment doc).first? .customFunction with
  | none => rfl
  | some marker =>
    simp only [Option.bind_some]
    rw [hparameters, hwarnings, hsame.description, hsame.first? (by decide)]
    unfold result options
    rw [hsame.first? (by decide), hsame.ofTags]
    rfl

theorem ofDecl?_result {doc : DocComment} (hdoc : decl.doc = some doc) :
    (ofDecl? registry decl).map (·.signature.result) =
      ((TagSet.ofComment doc).first? .customFunction).map fun _ =>
        result registry decl (TagSet.ofComment doc)
          (parameters registry decl (TagSet.ofComment doc)) := by
  unfold ofDecl?
  simp only [Option.bind_eq_bind, hdoc, Option.bind_some]
  cases (TagSet.ofComment doc).first? .customFunction <;> rfl

/-- The parameters do not depend on tags of other kinds. -/
theorem parameters_of_sameBut {other : FunctionDecl} {kind : TagKind} {set set' : TagSet}
    (h : set.SameBut kind set') (hkind : .param ≠ kind)
    (hparameters : other.parameters = decl.parameters)
    (hreads : readParamTag other = readParamTag decl) :
    parameters registry other set' = parameters registry decl set := by
  unfold parameters paramTags
  rw [h.all .param hkind, hreads, hparameters]

/-- If the type of the result moves from the code to the first result tag, the result stays as it is. -/
theorem result_gainsType {other : FunctionDecl} {set typedSet : TagSet} {type : String}
    (hdecl : decl.returnType? = some (.parse type)) (hother : other.returnType? = none)
    (h : tag.GainsType type.toList typed) (hnone : (TypeBlock.split tag.value.toList).1 = none)
    (hfirst : set.first? .returns = some tag) (htyped : typedSet.first? .returns = some typed)
    (ps : List Parameter) : result registry other typedSet ps = result registry decl set ps := by
  have htag : (ReturnsTag.read tag.value).typeText = none := by
    rw [ReturnsTag.read, TypeBlock.split_of_no_block hnone]
    rfl
  unfold result
  cases ps.find? isStreaming with
  | some p => rfl
  | none =>
    dsimp only
    rw [hfirst, htyped, Option.bind_some, Option.bind_some, h.read, htag, hdecl, hother,
      Option.map_some, TypeExpr.parse_trim]
    rfl

/-- A type block never changes what a type means. Let the braces of the type match. If a parameter, which
is the only one of its name, is annotated with the type and the first tag that names it has no type
block, then the candidate is the same if the type is put in a block of that tag and the annotation is
left out. If the result is annotated with the type and the first result tag has no type block, then the
result has the same type if the type is put in a block of that tag and the annotation is left out. -/
theorem ofDecl?_withType (registry : EnumRegistry) (decl : FunctionDecl) (doc : DocComment)
    (type : String) (hbalanced : TypeBlock.IsBalanced type.toList) :
    (∀ (front : List ParameterDecl) (p : ParameterDecl) (back : List ParameterDecl) (tag : Tag),
      (∀ q ∈ front ++ back, q.name ≠ p.name) →
      (TagSet.ofComment doc).firstNaming? p.name = some tag →
        (TypeBlock.split tag.value.toList).1 = none →
          ofDecl? registry { decl with
              doc := some (doc.withType tag.line type.toList)
              parameters := front ++ { p with type? := none } :: back } =
            ofDecl? registry { decl with
              doc := some doc
              parameters := front ++ { p with type? := some (.parse type) } :: back }) ∧
    (∀ tag, (TagSet.ofComment doc).first? .returns = some tag →
      (TypeBlock.split tag.value.toList).1 = none →
        (ofDecl? registry { decl with
            doc := some (doc.withType tag.line type.toList)
            returnType? := none }).map (·.signature.result) =
          (ofDecl? registry { decl with
            doc := some doc
            returnType? := some (.parse type) }).map (·.signature.result)) := by
  constructor
  · intro front p back tag hunique hfirst hnone
    obtain ⟨before, after, told, htags, hnaming⟩ := TagSet.exists_of_firstNaming? hfirst
    obtain ⟨description, typed, hgains, hset, htyped⟩ := TagSet.ofComment_withType hbalanced htags
    refine ofDecl?_congr ?_ ?_ ?_
    · rw [hset, htyped]
      exact TagSet.sameBut_of_gainsType hgains hnaming.kind description before after
    · rw [hset, htyped]
      exact parameters_gainsType rfl rfl (readParamTag_congr rfl (by simp)) hunique hnaming hgains hnone
    · rw [hset, htyped]
      exact paramWarnings_gainsType description before after (readParamTag_congr rfl (by simp)) hgains
        hnone
  · intro tag hfirst hnone
    obtain ⟨before, after, htags, hkind, hbefore⟩ := TagSet.exists_of_first? hfirst
    obtain ⟨description, typed, hgains, hset, htyped⟩ := TagSet.ofComment_withType hbalanced htags
    have hsame := TagSet.sameBut_of_gainsType hgains hkind description before after
    rw [hset] at hfirst
    rw [ofDecl?_result rfl, ofDecl?_result rfl, hset, htyped, hsame.first? (by decide)]
    refine congrArg (Option.map · _) (funext fun _ => ?_)
    rw [parameters_of_sameBut hsame (by decide) rfl rfl]
    exact result_gainsType rfl rfl hgains hnone hfirst
      (TagSet.first?_of_front hbefore (hgains.kind.trans hkind)) _

/-- A function whose tags tell no types. -/
def resize : FunctionDecl where
  name := "resize"
  doc := none
  parameters := []
  returnType? := none
  isAsync := false
  returnHints := []
  line := 5

def resizeDoc : DocComment where
  lines := ["@customfunction", "@param box The old box", "@returns The new box"]
  line := 1

/-- A type with nested braces may stand in either place. -/
theorem ofDecl?_withType_resize :
    (ofDecl? .empty { resize with
        doc := some ⟨["@customfunction",
          "@param \x7b\x7b edge: \x7b length: number \x7d \x7d\x7d box The old box",
          "@returns The new box"], 1⟩
        parameters := [{ name := "box", type? := none }] } =
      ofDecl? .empty { resize with
        doc := some resizeDoc
        parameters := [{
          name := "box"
          type? := some (.parse "\x7b edge: \x7b length: number \x7d \x7d") }] }) ∧
    ((ofDecl? .empty { resize with
        doc := some ⟨["@customfunction", "@param box The old box",
          "@returns \x7b\x7b edge: \x7b length: number \x7d \x7d\x7d The new box"], 1⟩
        returnType? := none }).map (·.signature.result) =
      (ofDecl? .empty { resize with
        doc := some resizeDoc
        returnType? := some (.parse "\x7b edge: \x7b length: number \x7d \x7d") }).map
          (·.signature.result)) := by
  have hbalanced : TypeBlock.IsBalanced "\x7b edge: \x7b length: number \x7d \x7d".toList := by
    decide +kernel
  obtain ⟨hparam, hresult⟩ := ofDecl?_withType .empty resize resizeDoc _ hbalanced
  constructor
  · have h := hparam [] { name := "box" } [] ⟨"param", some .param, "box The old box", 2⟩ nofun
      (by decide +kernel) (by decide +kernel)
    exact h
  · have h := hresult ⟨"returns", some .returns, "The new box", 3⟩ (by decide +kernel)
      (by decide +kernel)
    exact h

end Candidate

end CustomFunctions
