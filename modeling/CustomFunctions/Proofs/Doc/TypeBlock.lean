import CustomFunctions.Doc.ValueTag
import CustomFunctions.Proofs.Doc.Division
import Mathlib.Data.List.Infix

/-!
# Type blocks in comments

A type whose braces match is what a type block around it tells, and the block hides nothing of the
value behind it. So a type block that is put behind the name of a tag changes one tag of the comment,
and of that tag only the type.

## Main definitions

- `TypeBlock.IsBalanced` — a text whose braces match
- `DocComment.withType` — a comment with a type block at the tag of a line
- `Tag.GainsType` — a tag and the same tag with a type block
- `TagSet.ofComment_withType` — what the comment with the type block tells
-/

namespace CustomFunctions

open Text

namespace TypeBlock

/-- The braces of the text match: no brace closes more than has been opened before, and all that are
opened are closed. -/
structure IsBalanced (s : List Char) : Prop where
  opened : ∀ front, front <+: s → front.count '}' ≤ front.count '{'
  closed : s.count '}' = s.count '{'

instance (s : List Char) : Decidable (IsBalanced s) :=
  decidable_of_iff
    ((∀ front ∈ s.inits, front.count '}' ≤ front.count '{') ∧ s.count '}' = s.count '{')
    ⟨fun h => ⟨fun front hfront => h.1 front ((List.mem_inits front s).mpr hfront), h.2⟩,
      fun h => ⟨fun front hfront => h.opened front ((List.mem_inits front s).mp hfront), h.closed⟩⟩

example : IsBalanced "\x7b\x7b\x7d\x7d".toList ∧ ¬ IsBalanced "\x7d\x7b".toList := by decide

-- ════════════════════════════════════════════════════════════════════════
-- Values that begin with a type block
-- ════════════════════════════════════════════════════════════════════════

/-- No part at the start of the text closes more than `depth` braces that stand before the text. -/
def ClosesAtMost (depth : Nat) (s : List Char) : Prop :=
  ∀ front, front <+: s → front.count '}' ≤ depth + front.count '{'

variable {depth : Nat} {s : List Char}

theorem closesAtMost_of_cons {c : Char} (h : ClosesAtMost depth (c :: s)) (front : List Char)
    (hfront : front <+: s) : (c :: front).count '}' ≤ depth + (c :: front).count '{' :=
  h (c :: front) (List.cons_prefix_cons.mpr ⟨rfl, hfront⟩)

theorem not_closesAtMost_zero : ¬ ClosesAtMost 0 ('}' :: s) := by
  intro h
  have hle := closesAtMost_of_cons h [] List.nil_prefix
  exact absurd hle (by decide)

theorem ClosesAtMost.of_close (h : ClosesAtMost (depth + 1) ('}' :: s)) : ClosesAtMost depth s := by
  intro front hfront
  have hle := closesAtMost_of_cons h front hfront
  rw [List.count_cons_self, List.count_cons_of_ne (by decide)] at hle
  omega

theorem ClosesAtMost.of_open (h : ClosesAtMost depth ('{' :: s)) : ClosesAtMost (depth + 1) s := by
  intro front hfront
  have hle := closesAtMost_of_cons h front hfront
  rw [List.count_cons_self, List.count_cons_of_ne (by decide)] at hle
  omega

theorem ClosesAtMost.of_inner {c : Char} (hclose : c ≠ '}') (hopen : c ≠ '{')
    (h : ClosesAtMost depth (c :: s)) : ClosesAtMost depth s := by
  intro front hfront
  have hle := closesAtMost_of_cons h front hfront
  rwa [List.count_cons_of_ne hclose, List.count_cons_of_ne hopen] at hle

/-- The text is passed over, and what closes the block is searched behind it at the depth to which its
own braces lead. -/
theorem body?_append (h : ClosesAtMost depth s) (rest : List Char) :
    body? depth (s ++ rest) =
      (body? (depth + s.count '{' - s.count '}') rest).map
        fun (inner, after) => (s ++ inner, after) := by
  induction s generalizing depth with
  | nil =>
    show body? depth rest = (body? depth rest).map id
    rw [Option.map_id, id]
  | cons c s ih =>
    have hmap : ∀ found : Option (List Char × List Char),
        ((found.map fun (inner, after) => (s ++ inner, after)).map
          fun (inner, after) => (c :: inner, after)) =
        found.map fun (inner, after) => (c :: s ++ inner, after) := fun found => Option.map_map ..
    -- a closing brace lowers the depth, an opening one raises it, other characters leave it
    by_cases hclose : c = '}'
    · subst hclose
      cases depth with
      | zero => exact absurd h not_closesAtMost_zero
      | succ depth =>
        have hdepth : depth + 1 + ('}' :: s).count '{' - ('}' :: s).count '}' =
            depth + s.count '{' - s.count '}' := by
          rw [List.count_cons_self, List.count_cons_of_ne (by decide)]
          omega
        rw [hdepth, ← hmap, ← ih h.of_close]
        rfl
    · by_cases hopen : c = '{'
      · subst hopen
        have hdepth : depth + ('{' :: s).count '{' - ('{' :: s).count '}' =
            depth + 1 + s.count '{' - s.count '}' := by
          rw [List.count_cons_self, List.count_cons_of_ne (by decide)]
          omega
        rw [hdepth, ← hmap, ← ih h.of_open]
        rfl
      · have hstep : body? depth (c :: (s ++ rest)) =
            (body? depth (s ++ rest)).map fun (inner, after) => (c :: inner, after) := by
          rw [body?.eq_def]
          exact (if_neg hclose).trans (if_neg hopen)
        rw [List.count_cons_of_ne hopen, List.count_cons_of_ne hclose, ← hmap,
          ← ih (h.of_inner hclose hopen)]
        exact hstep

/-- A value that begins with a block around a balanced text is taken apart at the ends of the block. -/
theorem split_block (h : IsBalanced s) (rest : List Char) :
    split ('{' :: (s ++ '}' :: rest)) = (some (trim s), trimStart rest) := by
  have hopened : ClosesAtMost 0 s := by
    intro front hfront
    rw [Nat.zero_add]
    exact h.opened front hfront
  have hdepth : 0 + s.count '{' - s.count '}' = 0 := by
    rw [h.closed]
    omega
  have hbody : body? 0 (s ++ '}' :: rest) = some (s, rest) := by
    rw [body?_append hopened, hdepth]
    show some (s ++ [], rest) = _
    rw [List.append_nil]
  have hbrace : trimStart ('{' :: (s ++ '}' :: rest)) = '{' :: (s ++ '}' :: rest) :=
    trimStart_cons (by decide) _
  simp only [split, hbrace, hbody]

/-- A value without a type block is the text behind the missing block. -/
theorem split_of_no_block {value : List Char} (h : (split value).1 = none) :
    split value = (none, trimStart value) := by
  unfold split at h ⊢
  split
  · next rest hvalue =>
    simp only [hvalue] at h
    split at h <;> cases h
  · rfl

end TypeBlock

/-- What a parameter tag says, with the type besides. -/
def ParamTag.withType (type : List Char) (told : ParamTag) : ParamTag :=
  { told with typeText := some (String.ofList (trim type)) }

/-- The type that a parameter tag says is the one of its block. -/
theorem ParamTag.typeText_of_read? {value : String} {told : ParamTag} (h : read? value = some told) :
    told.typeText = (TypeBlock.split value.toList).1.map String.ofList := by
  unfold read? at h
  dsimp only at h
  split at h
  · split at h
    · cases h
    · rw [← Option.some.inj h]
  · cases h

theorem ParamTag.typeText_of_no_block {value : String} {told : ParamTag}
    (h : read? value = some told) (hnone : (TypeBlock.split value.toList).1 = none) :
    told.typeText = none := by
  rw [typeText_of_read? h, hnone]
  rfl

/-- The second tag is the first one with a block around the type before its value. -/
structure Tag.GainsType (type : List Char) (tag typed : Tag) : Prop where
  name : typed.name = tag.name
  kind : typed.kind = tag.kind
  line : typed.line = tag.line
  value : TypeBlock.split typed.value.toList = (some (trim type), tag.value.toList)

namespace Tag.GainsType

variable {type : List Char} {tag typed : Tag}

/-- A parameter tag with a type block says the same as without the block, and the type besides. -/
theorem read? (h : GainsType type tag typed) (hnone : (TypeBlock.split tag.value.toList).1 = none) :
    ParamTag.read? typed.value = (ParamTag.read? tag.value).map (ParamTag.withType type) := by
  have hrest : trimStart (trimStart tag.value.toList) = trimStart tag.value.toList :=
    List.dropWhile_idempotent ..
  unfold ParamTag.read?
  rw [h.value, TypeBlock.split_of_no_block hnone]
  dsimp only
  rw [hrest]
  split
  · split
    · rfl
    · rfl
  · rfl

/-- A result tag with a type block says the type. -/
theorem read (h : GainsType type tag typed) :
    (ReturnsTag.read typed.value).typeText = some (String.ofList (trim type)) := by
  rw [ReturnsTag.read, h.value]
  rfl

end Tag.GainsType

-- ════════════════════════════════════════════════════════════════════════
-- Marker lines with a type block
-- ════════════════════════════════════════════════════════════════════════

/-- The line with a block around the type behind the name of its tag, if a tag begins on it. -/
def Tag.withType (type line : List Char) : List Char :=
  match marker? line with
  | some (name, first) =>
    line.takeWhile isBlank ++ '@' :: (name ++ ' ' :: '{' :: (type ++ '}' :: first))
  | none => line

example : Tag.withType "number".toList " @param size The size".toList =
    " @param \x7bnumber\x7d size The size".toList := by decide

/-- The comment with a block around the type at the tag that begins on a source line. -/
def DocComment.withType (doc : DocComment) (line : Nat) (type : List Char) : DocComment where
  lines := doc.lines.modify (line - doc.line) fun l => String.ofList (Tag.withType type l.toList)
  line := doc.line

theorem beginsTag_of_marker? {l name first : List Char} (h : Tag.marker? l = some (name, first)) :
    beginsTag l = true := by
  by_contra hplain
  rw [Tag.marker?_of_plain (Bool.eq_false_iff.mpr hplain)] at h
  cases h

namespace TagBlock

variable (type : List Char) (b : TagBlock)

theorem isName_name : Tag.isName b.name = true := by
  have hbegins := b.marker_begins
  unfold beginsTag at hbegins
  split at hbegins
  · next c rest hmarker =>
    have hc : Tag.isNameChar c = true := by
      simp [Tag.isNameChar, Char.isAlphanum, hbegins]
    rw [name, body, hmarker, List.tail_cons, List.takeWhile_cons_of_pos hc, Tag.isName, hbegins,
      Bool.true_and]
    exact List.all_takeWhile
  · cases hbegins

theorem marker?_withType :
    Tag.marker? (Tag.withType type b.marker) =
      some (b.name, ' ' :: '{' :: (type ++ '}' :: b.first)) := by
  have hblank : trimStart (b.marker.takeWhile isBlank) = [] :=
    trimStart_of_blank fun c hc => List.mem_takeWhile_imp hc
  have hmarker : Tag.marker? (Tag.withType type b.marker) =
      Tag.marker? ('@' :: (b.name ++ ' ' :: '{' :: (type ++ '}' :: b.first))) := by
    rw [Tag.withType, b.marker?_marker]
    dsimp only
    rw [Tag.marker?, trimStart_append, if_pos hblank]
    rfl
  rw [hmarker]
  exact Tag.marker?_of_name b.isName_name fun c hc => Option.some.inj hc ▸ rfl

/-- The block with a type block behind the name of its tag. -/
def withType : TagBlock where
  marker := Tag.withType type b.marker
  more := b.more
  marker_begins := beginsTag_of_marker? (b.marker?_withType type)
  more_plain := b.more_plain

/-- The name stays, and the type stands before what stood behind the name. -/
theorem withType_name_first : (b.withType type).name = b.name ∧
    (b.withType type).first = ' ' :: '{' :: (type ++ '}' :: b.first) := by
  have hread := (b.withType type).marker?_marker.symm.trans (b.marker?_withType type)
  exact Prod.mk.inj (Option.some.inj hread)

theorem withType_value :
    (b.withType type).value =
      '{' :: (type ++ '}' :: trimEnd (joinLines (b.first :: b.more))) := by
  have hmore : (b.withType type).more = b.more := rfl
  have hjoin : joinLines ((b.withType type).first :: (b.withType type).more) =
      [' '] ++ ('{' :: type ++ ['}'] ++ joinLines (b.first :: b.more)) := by
    rw [(b.withType_name_first type).2, hmore, joinLines_cons, joinLines_cons]
    simp
  have hblock : trimEnd ('{' :: type ++ ['}']) = '{' :: type ++ ['}'] :=
    trimEnd_concat (by decide) _
  have hspace : ∀ c ∈ [' '], isBlank c = true := List.forall_mem_singleton.mpr (by decide)
  show trim (joinLines (trimStart _ :: _)) = _
  rw [trim_joinLines_trimStart, hjoin, trim_blank_append hspace, trim, List.append_assoc,
    List.cons_append, trimStart_cons (by decide), ← List.cons_append, ← List.append_assoc,
    trimEnd_append]
  split
  · next hend =>
    rw [hblock, hend]
    simp
  · simp

/-- The tag of the block gains the type. -/
theorem gainsType (h : TypeBlock.IsBalanced type) (line : Nat) :
    Tag.GainsType type (b.tag line) ((b.withType type).tag line) where
  name := by rw [tag, tag, (b.withType_name_first type).1]
  kind := by rw [tag, tag, (b.withType_name_first type).1]
  line := rfl
  value := by
    have hvalue : trimStart (trimEnd (joinLines (b.first :: b.more))) = b.value := by
      rw [trimStart_trimEnd, ← trim_joinLines_trimStart]
      rfl
    rw [tag, tag, String.toList_ofList, String.toList_ofList, b.withType_value,
      TypeBlock.split_block h, hvalue]

/-- Where a tag stands among those of some blocks, there stands the block of the tag. -/
theorem exists_of_tags_eq {line : Nat} {blocks : List TagBlock} {front back : List Tag} {t : Tag}
    (h : tags line blocks = front ++ t :: back) :
    ∃ before b after, blocks = before ++ b :: after ∧ tags line before = front ∧
      t = b.tag (line + (allLines before).length) ∧
        back = tags (line + (allLines before).length + b.lines.length) after := by
  induction front generalizing line blocks with
  | nil =>
    cases blocks with
    | nil => cases h
    | cons b blocks =>
      obtain ⟨htag, hback⟩ := List.cons.inj h
      exact ⟨[], b, blocks, rfl, rfl, htag.symm, hback.symm⟩
  | cons s front ih =>
    cases blocks with
    | nil => cases h
    | cons a blocks =>
      obtain ⟨htag, hrest⟩ := List.cons.inj h
      obtain ⟨before, b, after, rfl, rfl, rfl, rfl⟩ := ih hrest
      have hlines : line + (allLines (a :: before)).length =
          line + a.lines.length + (allLines before).length := by
        rw [Nat.add_assoc, ← List.length_append]
        rfl
      refine ⟨a :: before, b, after, rfl, congrArg (· :: _) htag, ?_, ?_⟩
      · rw [hlines]
      · rw [hlines]

end TagBlock

-- ════════════════════════════════════════════════════════════════════════
-- Comments with a type block
-- ════════════════════════════════════════════════════════════════════════

theorem DocComment.withType_lines {doc : DocComment} {front back : List (List Char)}
    {marker : List Char} (type : List Char)
    (h : doc.lines.map String.toList = front ++ marker :: back) :
    (doc.withType (doc.line + front.length) type).lines.map String.toList =
      front ++ Tag.withType type marker :: back := by
  obtain ⟨ls, rest, hlines, rfl, hrest⟩ := List.map_eq_append_iff.mp h
  obtain ⟨l, ms, rfl, rfl, rfl⟩ := List.map_eq_cons_iff.mp hrest
  have hindex : doc.line + (ls.map String.toList).length - doc.line = ls.length + 0 := by
    rw [List.length_map]
    omega
  rw [withType, hindex, hlines, List.modify, List.modifyTailIdx_add, List.map_append]
  show _ ++ (String.ofList _).toList :: _ = _
  rw [String.toList_ofList]

/-- A comment with a type block at a tag tells the same tags, of which that one has gained the type. -/
theorem TagSet.ofComment_withType {doc : DocComment} {type : List Char} {front back : List Tag}
    {tag : Tag} (hbalanced : TypeBlock.IsBalanced type)
    (h : (ofComment doc).tags = front ++ tag :: back) :
    ∃ description typed, tag.GainsType type typed ∧
      ofComment doc = ⟨description, front ++ tag :: back⟩ ∧
        ofComment (doc.withType tag.line type) = ⟨description, front ++ typed :: back⟩ := by
  obtain ⟨d, hd⟩ := Division.exists_lines_eq (doc.lines.map String.toList)
  have hread := ofComment_eq hd
  rw [hread] at h
  obtain ⟨before, b, after, hblocks, rfl, rfl, rfl⟩ := TagBlock.exists_of_tags_eq h
  have hlines : doc.lines.map String.toList =
      d.before ++ TagBlock.allLines before ++
        b.marker :: (b.more ++ TagBlock.allLines after) := by
    rw [← hd, Division.lines, hblocks, TagBlock.allLines, List.flatMap_append, ← List.append_assoc]
    rfl
  let typed : Division := ⟨d.before, before ++ b.withType type :: after, d.before_plain⟩
  have htyped : typed.lines =
      (doc.withType (doc.line + (d.before ++ TagBlock.allLines before).length) type).lines.map
        String.toList := by
    rw [DocComment.withType_lines type hlines, Division.lines, TagBlock.allLines,
      List.flatMap_append, ← List.append_assoc]
    rfl
  refine ⟨String.ofList d.description, _, b.gainsType type hbalanced _, ?_, ?_⟩
  · rw [hread, ← h]
    rfl
  · have hline : (b.tag (doc.line + d.before.length + (TagBlock.allLines before).length)).line =
        doc.line + (d.before ++ TagBlock.allLines before).length := by
      rw [List.length_append, ← Nat.add_assoc]
      rfl
    rw [hline, ofComment_eq htyped, Division.tagSet, TagBlock.tags_append]
    rfl

end CustomFunctions
