import CustomFunctions.Doc.TagSet
import CustomFunctions.Proofs.Text.Basic

/-!
# Rendering doc comments

A draft says what a comment is to tell: lines of description and tags with values of one or more
lines. It is written as a block with an asterisk before each line, and what is read from the block is
the draft again: the marks and the asterisks are taken off, while the indentation, the empty lines
and the asterisks and at signs inside the lines stay. Each tag is found on the line where it was
written.

## Main definitions

- `WrittenTag`, `CommentDraft` — a tag and a comment as their author means them
- `CommentDraft.render` — the comment block of a draft
- `CommentDraft.tags` — the tags of a draft, each on the line of the block where it begins
- `ofComment_render` — a rendered draft is read back
-/

namespace CustomFunctions

-- ════════════════════════════════════════════════════════════════════════
-- Drafts
-- ════════════════════════════════════════════════════════════════════════

/-- A text of one line that has no blanks at its end. -/
structure Text.IsLine (l : List Char) : Prop where
  no_feed : '\n' ∉ l
  trimmed : Text.trimEnd l = l

instance (l : List Char) : Decidable (Text.IsLine l) :=
  decidable_of_iff ('\n' ∉ l ∧ Text.trimEnd l = l) ⟨fun h => ⟨h.1, h.2⟩, fun h => ⟨h.1, h.2⟩⟩

theorem Text.IsLine.isUnbroken {l : List Char} (h : Text.IsLine l) : Text.IsUnbroken l where
  no_feed := h.no_feed
  no_return hlast := absurd (Text.trimEnd_eq_self_iff.mp h.trimmed '\r' hlast) (by decide)

/-- Does the line begin, after blanks, with an at sign and a letter? -/
def Text.beginsTag (l : List Char) : Bool :=
  match Text.trimStart l with
  | '@' :: c :: _ => c.isAlpha
  | _ => false

/-- Is the text a letter, followed by letters, digits, underscores and hyphens? -/
def Tag.isName : List Char → Bool
  | [] => false
  | c :: rest => c.isAlpha && rest.all Tag.isNameChar

/-- Do authors mean the kind by the name, in some letter case? -/
def TagKind.isSpelledBy (name : String) (kind : TagKind) : Bool :=
  name.toLower = kind.canonical || (kind = .returns && name.toLower = "return")

/-- A tag with a value of one or more lines. -/
structure WrittenTag where
  name : String
  /-- The first line of the value, which stands behind the name. -/
  first : String
  /-- The further lines of the value. -/
  more : List String
  name_valid : Tag.isName name.toList = true := by decide +kernel
  first_isLine : Text.IsLine first.toList := by decide +kernel
  more_isLine : ∀ l ∈ more, Text.IsLine l.toList := by decide +kernel
  more_plain : ∀ l ∈ more, Text.beginsTag l.toList = false := by decide +kernel
  value_trimmed : Text.trim (("\n".intercalate (first :: more)).toList) =
    ("\n".intercalate (first :: more)).toList := by decide +kernel

/-- A comment: lines of description and tags. -/
structure CommentDraft where
  description : List String
  tags : List WrittenTag
  description_isLine : ∀ l ∈ description, Text.IsLine l.toList := by decide +kernel
  description_trimmed : ∀ l ∈ description, Text.trimStart l.toList = l.toList := by decide +kernel
  description_plain : ∀ l ∈ description, Text.beginsTag l.toList = false := by decide +kernel
  description_head : description.head? ≠ some "" := by decide +kernel
  description_last : description.getLast? ≠ some "" := by decide +kernel

/-- A line and the tag that begins on it, if one begins there. -/
structure TagLine where
  text : String
  opens : Option WrittenTag := none

namespace WrittenTag

/-- The kind that the name stands for. -/
def kind? (t : WrittenTag) : Option TagKind :=
  TagKind.all.find? (TagKind.isSpelledBy t.name)

/-- The tag as it is read from a marker on the given source line. -/
def tag (t : WrittenTag) (line : Nat) : Tag where
  name := (t.kind?.map TagKind.canonical).getD t.name
  kind := t.kind?
  value := "\n".intercalate (t.first :: t.more)
  line := line

/-- The lines of the tag. -/
def lines (t : WrittenTag) : List TagLine :=
  ⟨"@" ++ t.name ++ " " ++ t.first, some t⟩ :: t.more.map fun l => ⟨l, none⟩

end WrittenTag

namespace TagLine

/-- The line behind an asterisk. -/
def starred (l : TagLine) : TagLine :=
  { l with text := " * " ++ l.text }

/-- The tags that begin on lines of which the first one is source line `line`. -/
def tags (line : Nat) (ls : List TagLine) : List Tag :=
  (ls.zipIdx line).filterMap fun (l, i) => l.opens.map (·.tag i)

end TagLine

namespace CommentDraft

/-- The lines of the comment. -/
def lines (d : CommentDraft) : List TagLine :=
  d.description.map (fun l => ⟨l, none⟩) ++ d.tags.flatMap WrittenTag.lines

/-- The lines of the comment block. -/
def blockLines (d : CommentDraft) : List TagLine :=
  ⟨"/**", none⟩ :: d.lines.map TagLine.starred ++ [⟨" */", none⟩]

/-- The text of the comment block. -/
def render (d : CommentDraft) : String :=
  "\n".intercalate (d.blockLines.map TagLine.text)

/-- The comment as it is read from a block that begins on the given source line. -/
def tagSet (d : CommentDraft) (line : Nat) : TagSet where
  description := "\n".intercalate d.description
  tags := TagLine.tags line d.blockLines

end CommentDraft

-- ════════════════════════════════════════════════════════════════════════
-- Tag names
-- ════════════════════════════════════════════════════════════════════════

namespace Tag

theorem isNameChar_of_isName {name : List Char} (h : isName name = true) :
    ∀ c ∈ name, isNameChar c = true := by
  cases name with
  | nil => exact nomatch h
  | cons c rest =>
    rw [isName, Bool.and_eq_true, List.all_eq_true] at h
    refine List.forall_mem_cons.mpr ⟨?_, h.2⟩
    simp [isNameChar, Char.isAlphanum, h.1]

theorem toNat_of_isNameChar {c : Char} (h : isNameChar c = true) :
    0x2D ≤ c.toNat ∧ c.toNat < 0x80 := by
  rw [isNameChar, Bool.or_eq_true, Bool.or_eq_true, decide_eq_true_eq, decide_eq_true_eq] at h
  rcases h with (halphanum | rfl) | rfl
  · obtain ⟨hlow, hhigh⟩ := Text.toNat_of_isAlphanum halphanum
    exact ⟨Nat.le_trans (by decide) hlow, hhigh⟩
  · decide
  · decide

theorem isBlank_of_isNameChar {c : Char} (h : isNameChar c = true) : Text.isBlank c = false := by
  have hranges : ∀ r ∈ Text.blankRanges, r.2 < 0x2D ∨ 0x80 ≤ r.1 := by decide
  obtain ⟨hlow, hhigh⟩ := toNat_of_isNameChar h
  rw [Bool.eq_false_iff]
  intro hblank
  obtain ⟨r, hr, hfirst, hlast⟩ := Text.inRanges_iff.mp hblank
  have := hranges r hr
  omega

theorem isBlank_of_isName {name : List Char} (h : isName name = true) :
    ∀ c ∈ name, Text.isBlank c = false :=
  fun c hc => isBlank_of_isNameChar (isNameChar_of_isName h c hc)

end Tag

/-- The kind of a tag name is the one that authors mean by it. -/
theorem TagKind.ofName?_eq {name : String} (h : ∀ c ∈ name.toList, c.toNat < 0x80) :
    ofName? name = all.find? (isSpelledBy name) := by
  rw [ofName?, Text.lowerCase_of_ascii h]
  split
  · next hreturn =>
    simp [isSpelledBy, hreturn, all, canonical]
  · next hreturn =>
    congr 1
    funext kind
    simp [isSpelledBy, hreturn, eq_comm]

-- ════════════════════════════════════════════════════════════════════════
-- Lines of a block
-- ════════════════════════════════════════════════════════════════════════

open Text

namespace DocComment

/-- Between the marks of a block there are an empty line, the lines of the block and a last line with
one space. -/
theorem body_joinLines (ls : List (List Char)) :
    body (joinLines ("/**".toList :: ls ++ [" */".toList])) = joinLines ([] :: ls ++ [[' ']]) := by
  have hblock : joinLines ("/**".toList :: ls ++ [" */".toList]) =
      '/' :: '*' :: '*' :: joinLines ([] :: ls ++ [[' ']]) ++ ['*'] ++ ['/'] := by
    simp [joinLines_cons]
  have htrim : trim (joinLines ("/**".toList :: ls ++ [" */".toList])) =
      joinLines ("/**".toList :: ls ++ [" */".toList]) := by
    rw [hblock, trim, List.cons_append, List.cons_append, trimStart_cons (by decide),
      ← List.cons_append, ← List.cons_append, trimEnd_concat (by decide)]
  rw [body, htrim, hblock]
  simp [withoutEnd, List.isPrefixOf?, List.isSuffixOf?]

theorem bodyLine_starred (l : List Char) : bodyLine (" * ".toList ++ l) = trimEnd l :=
  rfl

theorem ofBlock_toList (block : String) (line : Nat) :
    (ofBlock block line).lines.map String.toList =
      (Text.lines (body block.toList)).map bodyLine := by
  simp [ofBlock, Function.comp_def]

/-- The lines of a block are read without the marks, the asterisks and the blanks at their ends. -/
theorem ofBlock_lines {ls : List (List Char)} (line : Nat) (hls : ∀ l ∈ ls, IsUnbroken l)
    {block : String} (hblock : block.toList =
      joinLines ("/**".toList :: ls.map (" * ".toList ++ ·) ++ [" */".toList])) :
    (ofBlock block line).lines.map String.toList = [] :: ls.map trimEnd ++ [[]] := by
  have hmark : IsUnbroken " * ".toList := ⟨by decide, by decide⟩
  have hlines : Text.lines (body block.toList) =
      [] :: ls.map (" * ".toList ++ ·) ++ [[' ']] := by
    rw [hblock, body_joinLines]
    refine lines_joinLines (List.cons_ne_nil _ _) ?_ (by decide)
    rw [List.forall_mem_cons, List.forall_mem_map]
    exact ⟨⟨List.not_mem_nil, nofun⟩, fun l hl => hmark.append (hls l hl)⟩
  have hstarred : bodyLine ∘ (" * ".toList ++ ·) = trimEnd := funext bodyLine_starred
  rw [ofBlock_toList, hlines, List.map_append, List.map_cons, List.map_map, hstarred]
  rfl

end DocComment

-- ════════════════════════════════════════════════════════════════════════
-- Tags of lines
-- ════════════════════════════════════════════════════════════════════════

namespace TagSet

/-- Lines without a marker belong to what stands before them. -/
theorem split_append (line : Nat) {ls : List (List Char)} (h : ∀ l ∈ ls, Tag.marker? l = none)
    (rest : List (List Char)) :
    split line (ls ++ rest) =
      (ls ++ (split (line + ls.length) rest).1, (split (line + ls.length) rest).2) := by
  induction ls generalizing line with
  | nil => rfl
  | cons l ls ih =>
    obtain ⟨hl, hls⟩ := List.forall_mem_cons.mp h
    rw [List.cons_append, split, ih (line + 1) hls, hl, List.length_cons, Nat.add_right_comm,
      Nat.add_assoc]
    rfl

/-- A marker line begins a tag, whose value goes on up to the next marker line. -/
theorem split_marker (line : Nat) {l name first : List Char} (h : Tag.marker? l = some (name, first))
    (rest : List (List Char)) :
    split line (l :: rest) =
      ([], Tag.ofParts line name first (split (line + 1) rest).1 :: (split (line + 1) rest).2) := by
  rw [split, h]

end TagSet

theorem Tag.marker?_of_plain {l : List Char} (h : beginsTag l = false) : marker? l = none := by
  unfold marker?
  unfold beginsTag at h
  split
  · next c rest hl =>
    rw [hl] at h
    exact if_neg (Bool.eq_false_iff.mp h)
  · rfl

/-- The name of a marker ends where no name character follows. -/
theorem Tag.marker?_of_name {name rest : List Char} (hname : isName name = true)
    (hrest : ∀ c ∈ rest.head?, isNameChar c = false) :
    marker? ('@' :: (name ++ rest)) = some (name, rest) := by
  have hchars := isNameChar_of_isName hname
  obtain ⟨htake, hdrop⟩ := Text.takeWhile_dropWhile_append hchars hrest
  cases name with
  | nil => exact nomatch hname
  | cons c name =>
    rw [isName, Bool.and_eq_true] at hname
    rw [marker?, trimStart_cons (by decide), List.cons_append]
    refine (if_pos hname.1).trans ?_
    rw [← List.cons_append, htake, hdrop]

namespace WrittenTag

variable (t : WrittenTag)

theorem marker_toList :
    ("@" ++ t.name ++ " " ++ t.first).toList = '@' :: t.name.toList ++ ' ' :: t.first.toList := by
  simp

theorem isBlank_of_mem_marker : ∀ c ∈ '@' :: t.name.toList, isBlank c = false :=
  List.forall_mem_cons.mpr ⟨by decide, Tag.isBlank_of_isName t.name_valid⟩

/-- The first line of a tag is a marker, with the name and the first line of the value. -/
theorem exists_marker : ∃ rest,
    Tag.marker? (trimEnd ("@" ++ t.name ++ " " ++ t.first).toList) = some (t.name.toList, rest) ∧
      trimStart rest = trimStart t.first.toList := by
  rw [t.marker_toList, trimEnd_append, trimEnd_space_cons t.first_isLine.trimmed,
    trimEnd_of_no_blank t.isBlank_of_mem_marker]
  by_cases hfirst : t.first.toList = []
  · rw [if_pos hfirst, if_pos rfl, hfirst, ← List.append_nil ('@' :: _)]
    exact ⟨[], Tag.marker?_of_name t.name_valid nofun, rfl⟩
  · rw [if_neg hfirst, if_neg (List.cons_ne_nil _ _)]
    refine ⟨' ' :: t.first.toList, Tag.marker?_of_name t.name_valid ?_, rfl⟩
    exact fun c hc => Option.some.inj hc ▸ rfl

/-- The lines of a tag can be told apart in a block. -/
theorem lines_isUnbroken : ∀ l ∈ t.lines, IsUnbroken l.text.toList := by
  refine List.forall_mem_cons.mpr ⟨?_, ?_⟩
  · have hname := isUnbroken_of_no_blank t.isBlank_of_mem_marker
    have hspace : IsUnbroken [' '] := ⟨by decide, by decide⟩
    dsimp only
    rw [t.marker_toList]
    exact hname.append (hspace.append t.first_isLine.isUnbroken)
  · rw [List.forall_mem_map]
    exact fun l hl => (t.more_isLine l hl).isUnbroken

/-- What is read from the lines of a tag is the tag, also if empty lines follow. -/
theorem ofParts_eq (line : Nat) {rest : List Char} {blanks : List (List Char)}
    (hrest : trimStart rest = trimStart t.first.toList) (hblanks : ∀ l ∈ blanks, l = []) :
    Tag.ofParts line t.name.toList rest (t.more.map String.toList ++ blanks) = t.tag line := by
  have hkind : TagKind.ofName? t.name = t.kind? := by
    refine TagKind.ofName?_eq fun c hc => ?_
    exact (Tag.toNat_of_isNameChar (Tag.isNameChar_of_isName t.name_valid c hc)).2
  have hvalue : trim (joinLines (trimStart rest :: (t.more.map String.toList ++ blanks))) =
      ("\n".intercalate (t.first :: t.more)).toList := by
    rw [hrest, ← List.cons_append, trim_joinLines_append _ _ hblanks, trim_joinLines_trimStart,
      ← List.map_cons, ← toList_joinLines, t.value_trimmed]
  rw [Tag.ofParts, hvalue, String.ofList_toList, String.ofList_toList, hkind]
  rfl

end WrittenTag

namespace TagLine

theorem tags_append (line : Nat) (ls rest : List TagLine) :
    tags line (ls ++ rest) = tags line ls ++ tags (line + ls.length) rest := by
  rw [tags, List.zipIdx_append, List.filterMap_append]
  rfl

theorem tags_of_plain (line : Nat) {ls : List TagLine} (h : ∀ l ∈ ls, l.opens = none) :
    tags line ls = [] := by
  rw [tags, List.filterMap_eq_nil_iff]
  rintro ⟨l, i⟩ hl
  show l.opens.map _ = none
  rw [h l (List.fst_mem_of_mem_zipIdx hl)]
  rfl

theorem tags_lines (line : Nat) (t : WrittenTag) (rest : List TagLine) :
    tags line (t.lines ++ rest) = t.tag line :: tags (line + 1 + t.more.length) rest := by
  have hmore : tags (line + 1) (t.more.map fun l => ⟨l, none⟩) = [] :=
    tags_of_plain _ (by simp)
  have hsplit : t.lines = [⟨"@" ++ t.name ++ " " ++ t.first, some t⟩] ++
      t.more.map fun l => ⟨l, none⟩ :=
    rfl
  rw [hsplit, List.append_assoc, tags_append, tags_append, List.length_singleton, hmore,
    List.length_map]
  rfl

theorem tags_starred (line : Nat) (ls : List TagLine) :
    tags line (ls.map starred) = tags line ls := by
  rw [tags, List.zipIdx_map, List.filterMap_map]
  rfl

end TagLine

-- ════════════════════════════════════════════════════════════════════════
-- Reading a rendered draft
-- ════════════════════════════════════════════════════════════════════════

/-- The lines as they are read from a block. -/
def TagLine.read (ls : List TagLine) : List (List Char) :=
  ls.map fun l => trimEnd l.text.toList

theorem TagLine.read_of_isLine {ls : List String} (h : ∀ l ∈ ls, IsLine l.toList) :
    read (ls.map fun l => ⟨l, none⟩) = ls.map String.toList := by
  rw [read, List.map_map]
  exact List.map_congr_left fun l hl => (h l hl).trimmed

/-- From the lines of tags the tags are read; the lines before the first one are empty. -/
theorem TagSet.split_tags (line : Nat) (ts : List WrittenTag) :
    (∀ l ∈ (split line (TagLine.read (ts.flatMap WrittenTag.lines) ++ [[]])).1, l = []) ∧
      (split line (TagLine.read (ts.flatMap WrittenTag.lines) ++ [[]])).2 =
        TagLine.tags line (ts.flatMap WrittenTag.lines) := by
  induction ts generalizing line with
  | nil => exact ⟨fun l hl => List.mem_singleton.mp hl, rfl⟩
  | cons t ts ih =>
    obtain ⟨rest, hmarker, hrest⟩ := t.exists_marker
    obtain ⟨hbefore, htags⟩ := ih (line + 1 + t.more.length)
    have hmore : ∀ l ∈ t.more.map String.toList, Tag.marker? l = none := by
      rw [List.forall_mem_map]
      exact fun l hl => Tag.marker?_of_plain (t.more_plain l hl)
    have hread : TagLine.read ((t :: ts).flatMap WrittenTag.lines) ++ [[]] =
        trimEnd ("@" ++ t.name ++ " " ++ t.first).toList ::
          (t.more.map String.toList ++ (TagLine.read (ts.flatMap WrittenTag.lines) ++ [[]])) := by
      rw [← TagLine.read_of_isLine t.more_isLine]
      simp [TagLine.read, WrittenTag.lines]
    rw [hread, split_marker line hmarker, split_append _ hmore, List.length_map,
      t.ofParts_eq line hrest hbefore, htags]
    exact ⟨fun l hl => absurd hl List.not_mem_nil, (TagLine.tags_lines line t _).symm⟩

namespace CommentDraft

theorem render_toList (d : CommentDraft) : d.render.toList =
    joinLines ("/**".toList :: (d.lines.map (·.text.toList)).map (" * ".toList ++ ·)
      ++ [" */".toList]) := by
  rw [render, toList_joinLines, blockLines]
  simp [Function.comp_def, TagLine.starred]

/-- The lines of a draft are read from its block. -/
theorem ofBlock_render (d : CommentDraft) (line : Nat) :
    (DocComment.ofBlock d.render line).lines.map String.toList =
      [] :: TagLine.read d.lines ++ [[]] := by
  have hlines : ∀ l ∈ d.lines, IsUnbroken l.text.toList := by
    rw [lines, List.forall_mem_append, List.forall_mem_map, List.forall_mem_flatMap]
    exact ⟨fun l hl => (d.description_isLine l hl).isUnbroken, fun t _ => t.lines_isUnbroken⟩
  rw [DocComment.ofBlock_lines line (List.forall_mem_map.mpr hlines) d.render_toList, List.map_map]
  rfl

/-- The tags of a block begin behind the opening line and the lines of the description. -/
theorem tags_blockLines (d : CommentDraft) (line : Nat) :
    TagLine.tags line d.blockLines =
      TagLine.tags (line + (d.description.length + 1)) (d.tags.flatMap WrittenTag.lines) := by
  have hclosing : ∀ i, TagLine.tags i [⟨" */", none⟩] = [] := fun _ => rfl
  have hsplit : d.blockLines =
      ⟨"/**", none⟩ :: d.description.map (fun l => TagLine.starred ⟨l, none⟩) ++
        ((d.tags.flatMap WrittenTag.lines).map TagLine.starred ++ [⟨" */", none⟩]) := by
    simp [blockLines, lines, Function.comp_def]
  rw [hsplit, TagLine.tags_append, TagLine.tags_append, TagLine.tags_starred,
    TagLine.tags_of_plain line (by simp [TagLine.starred]), hclosing, List.nil_append,
    List.append_nil, List.length_cons, List.length_map]

/-- Nothing is trimmed of a description but the empty lines around it. -/
theorem trim_description (d : CommentDraft) {empty : List (List Char)} (h : ∀ l ∈ empty, l = []) :
    trim (joinLines ([] :: d.description.map String.toList ++ empty)) =
      joinLines (d.description.map String.toList) := by
  rw [trim_joinLines_append _ _ h]
  obtain ⟨description, _, hline, hstart, _, hhead, hlast⟩ := d
  dsimp only
  cases description with
  | nil => rfl
  | cons l ls =>
    have hfeed : ∀ c ∈ ['\n'], isBlank c = true := List.forall_mem_singleton.mpr rfl
    have hjoined : joinLines ([] :: (l :: ls).map String.toList) =
        ['\n'] ++ joinLines (l.toList :: ls.map String.toList) := by
      simp [joinLines_cons]
    rw [hjoined, trim_blank_append hfeed, List.map_cons]
    refine trim_joinLines (hstart l List.mem_cons_self) ?_ ?_
    · rw [ne_eq, String.toList_eq_nil_iff]
      exact fun hempty => hhead (congrArg some hempty)
    · intro q hq
      rw [← List.map_cons, List.getLast?_map] at hq
      obtain ⟨s, hs, rfl⟩ := Option.map_eq_some_iff.mp hq
      refine ⟨(hline s (List.mem_of_getLast? hs)).trimmed, ?_⟩
      rw [ne_eq, String.toList_eq_nil_iff]
      exact fun hempty => hlast (hempty ▸ hs)

theorem map_trim_description (d : CommentDraft) {empty : List (List Char)}
    (h : ∀ l ∈ empty, l = []) :
    ([] :: d.description.map String.toList ++ empty).map trim =
      [] :: d.description.map String.toList ++ empty := by
  refine (List.map_congr_left ?_).trans (List.map_id _)
  simp only [List.cons_append, List.forall_mem_cons, List.forall_mem_append, List.forall_mem_map]
  refine ⟨rfl, fun l hl => ?_, fun l hl => h l hl ▸ rfl⟩
  rw [trim, d.description_trimmed l hl]
  exact (d.description_isLine l hl).trimmed

/-- What is read from the block of a draft is its description and its tags, each on the line where it
is written. -/
theorem ofComment_render (d : CommentDraft) (line : Nat) :
    TagSet.ofComment (.ofBlock d.render line) = d.tagSet line := by
  have hlines : (DocComment.ofBlock d.render line).lines.map String.toList =
      ([] :: d.description.map String.toList) ++
        (TagLine.read (d.tags.flatMap WrittenTag.lines) ++ [[]]) := by
    rw [d.ofBlock_render, ← TagLine.read_of_isLine d.description_isLine]
    simp [TagLine.read, lines]
  have hline : (DocComment.ofBlock d.render line).line = line := rfl
  have hplain : ∀ l ∈ [] :: d.description.map String.toList, Tag.marker? l = none := by
    rw [List.forall_mem_cons, List.forall_mem_map]
    exact ⟨rfl, fun l hl => Tag.marker?_of_plain (d.description_plain l hl)⟩
  obtain ⟨hbefore, htags⟩ := TagSet.split_tags (line + (d.description.length + 1)) d.tags
  rw [TagSet.ofComment, hlines, hline, TagSet.split_append _ hplain, List.length_cons,
    List.length_map, htags, ← d.tags_blockLines]
  dsimp only
  rw [d.map_trim_description hbefore, d.trim_description hbefore, ← toList_joinLines,
    String.ofList_toList]
  rfl

/-- A comment with an empty line, an asterisk, indented lines, an at sign inside a value, and names in
other letter cases. -/
def additionDraft : CommentDraft where
  description := ["Adds up cells.", "", "* Blank cells count as 0."]
  tags := [
    { name := "CustomFunction", first := "ADD", more := [] },
    { name := "Return", first := "\x7bnumber\x7d The sum"
      more := ["", "    of all @cells", "* and rows."] },
    { name := "seeAlso", first := "", more := [] }]

/-- The comment on an addition is read back from its block on line 7. -/
theorem ofComment_render_addition :
    additionDraft.render =
        "\n".intercalate ["/**", " * Adds up cells.", " * ", " * * Blank cells count as 0.",
          " * @CustomFunction ADD", " * @Return \x7bnumber\x7d The sum", " * ",
          " *     of all @cells", " * * and rows.", " * @seeAlso ", " */"] ∧
      TagSet.ofComment (.ofBlock additionDraft.render 7) =
        { description := "Adds up cells.\n\n* Blank cells count as 0."
          tags := [
            ⟨"customfunction", some .customFunction, "ADD", 11⟩,
            ⟨"returns", some .returns,
              "\x7bnumber\x7d The sum\n\n    of all @cells\n* and rows.", 12⟩,
            ⟨"seeAlso", none, "", 16⟩] } := by
  refine ⟨by decide +kernel, ?_⟩
  rw [ofComment_render additionDraft 7]
  decide +kernel

end CommentDraft

end CustomFunctions
