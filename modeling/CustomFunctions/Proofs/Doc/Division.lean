import CustomFunctions.Proofs.Doc.Rendering

/-!
# How a comment is divided

The marker lines of a comment divide its lines in exactly one way: into lines before the first marker
line and, for each marker line, a block that it begins. The lines before are the description, and each
block is one tag, which stands on the line of its marker. So no line is lost, counted twice or given to
another tag than the one whose marker comes last before it.

## Main definitions

- `TagBlock` — a marker line with the lines up to the next one
- `Division` — lines without a marker and the blocks behind them
- `Division.tagSet` — the description and the tags that a divided comment tells
- `TagSet.ofComment_divides` — a comment is read as its division tells
-/

namespace CustomFunctions

open Text

/-- The lines of a tag: its marker line and the lines up to the next marker line. -/
structure TagBlock where
  marker : List Char
  more : List (List Char)
  marker_begins : beginsTag marker = true
  more_plain : ∀ l ∈ more, beginsTag l = false

/-- The lines of a comment: those before the first marker line and those of each tag. -/
structure Division where
  before : List (List Char)
  blocks : List TagBlock
  before_plain : ∀ l ∈ before, beginsTag l = false

namespace TagBlock

/-- The lines of the block. -/
def lines (b : TagBlock) : List (List Char) :=
  b.marker :: b.more

/-- The text behind the at sign of the marker. -/
def body (b : TagBlock) : List Char :=
  (trimStart b.marker).tail

/-- The name of the tag: letters, digits, underscores and hyphens, as many as follow the at sign. -/
def name (b : TagBlock) : List Char :=
  b.body.takeWhile Tag.isNameChar

/-- The text behind the name on the marker line. -/
def first (b : TagBlock) : List Char :=
  b.body.dropWhile Tag.isNameChar

/-- The value of the tag: what stands behind the name and the further lines as they are. -/
def value (b : TagBlock) : List Char :=
  trim (List.intercalate ['\n'] (trimStart b.first :: b.more))

/-- The tag that the block tells if its marker stands on the given source line. -/
def tag (b : TagBlock) (line : Nat) : Tag where
  name := ((TagKind.ofName? (String.ofList b.name)).map TagKind.canonical).getD (String.ofList b.name)
  kind := TagKind.ofName? (String.ofList b.name)
  value := String.ofList b.value
  line := line

/-- The lines of several blocks. -/
def allLines (blocks : List TagBlock) : List (List Char) :=
  blocks.flatMap lines

/-- The tags of blocks of which the first one begins on the given source line. -/
def tags (line : Nat) : List TagBlock → List Tag
  | [] => []
  | b :: blocks => b.tag line :: tags (line + b.lines.length) blocks

end TagBlock

namespace Division

/-- The lines of the comment. -/
def lines (d : Division) : List (List Char) :=
  d.before ++ TagBlock.allLines d.blocks

/-- The description that the lines before the first marker line make up. -/
def description (d : Division) : List Char :=
  trim (List.intercalate ['\n'] (d.before.map trim))

/-- The description and the tags of a comment whose first line is the given source line. -/
def tagSet (d : Division) (line : Nat) : TagSet where
  description := String.ofList d.description
  tags := TagBlock.tags (line + d.before.length) d.blocks

end Division

-- ════════════════════════════════════════════════════════════════════════
-- Lists of lines have one division
-- ════════════════════════════════════════════════════════════════════════

/-- Every list of lines can be divided: a marker line takes the plain lines behind it. -/
theorem Division.exists_lines_eq (ls : List (List Char)) : ∃ d : Division, d.lines = ls := by
  induction ls with
  | nil => exact ⟨⟨[], [], nofun⟩, rfl⟩
  | cons l ls ih =>
    obtain ⟨⟨before, blocks, hbefore⟩, rfl⟩ := ih
    cases hl : beginsTag l with
    | true => exact ⟨⟨[], ⟨l, before, hl, hbefore⟩ :: blocks, nofun⟩, rfl⟩
    | false =>
      have hplain : ∀ k ∈ l :: before, beginsTag k = false :=
        List.forall_mem_cons.mpr ⟨hl, hbefore⟩
      exact ⟨⟨l :: before, blocks, hplain⟩, rfl⟩

/-- Plain lines before blocks are those up to the first marker line. -/
theorem takeWhile_append_allLines {plain : List (List Char)}
    (h : ∀ l ∈ plain, beginsTag l = false) (blocks : List TagBlock) :
    (plain ++ TagBlock.allLines blocks).takeWhile (! beginsTag ·) = plain := by
  rw [List.takeWhile_append_of_pos fun l hl => by rw [h l hl]; rfl]
  cases blocks with
  | nil => exact List.append_nil plain
  | cons b blocks =>
    have hmarker : TagBlock.allLines (b :: blocks) =
        b.marker :: (b.more ++ TagBlock.allLines blocks) := rfl
    rw [hmarker, List.takeWhile_cons_of_neg (by rw [b.marker_begins]; decide), List.append_nil]

/-- Where lines are divided in two ways, the plain lines are the same and so is what follows. -/
theorem plain_eq_of_append_eq {plain others : List (List Char)} {blocks rivals : List TagBlock}
    (hplain : ∀ l ∈ plain, beginsTag l = false) (hothers : ∀ l ∈ others, beginsTag l = false)
    (h : plain ++ TagBlock.allLines blocks = others ++ TagBlock.allLines rivals) :
    plain = others ∧ TagBlock.allLines blocks = TagBlock.allLines rivals := by
  have hsame : plain = others := by
    rw [← takeWhile_append_allLines hplain blocks, h, takeWhile_append_allLines hothers]
  subst hsame
  exact ⟨rfl, List.append_cancel_left h⟩

theorem TagBlock.allLines_injective {blocks rivals : List TagBlock}
    (h : allLines blocks = allLines rivals) : blocks = rivals := by
  induction blocks generalizing rivals with
  | nil =>
    cases rivals with
    | nil => rfl
    | cons => cases h
  | cons b blocks ih =>
    cases rivals with
    | nil => cases h
    | cons r rivals =>
      obtain ⟨hmarker, hrest⟩ := List.cons.inj h
      obtain ⟨hmore, hblocks⟩ := plain_eq_of_append_eq b.more_plain r.more_plain hrest
      rw [ih hblocks]
      congr 1
      cases b
      cases r
      congr

theorem Division.lines_injective {d e : Division} (h : d.lines = e.lines) : d = e := by
  obtain ⟨hbefore, hblocks⟩ := plain_eq_of_append_eq d.before_plain e.before_plain h
  have hsame := TagBlock.allLines_injective hblocks
  cases d
  cases e
  congr

-- ════════════════════════════════════════════════════════════════════════
-- Tags of blocks
-- ════════════════════════════════════════════════════════════════════════

/-- A marker line is taken apart into the name and the text behind it. -/
theorem TagBlock.marker?_marker (b : TagBlock) : Tag.marker? b.marker = some (b.name, b.first) := by
  have hbegins := b.marker_begins
  unfold beginsTag at hbegins
  split at hbegins
  · next c rest hmarker =>
    rw [Tag.marker?, name, first, body, hmarker]
    exact if_pos hbegins
  · cases hbegins

/-- From the lines of blocks their tags are read, and no line is left over. -/
theorem TagSet.split_allLines (line : Nat) (blocks : List TagBlock) :
    split line (TagBlock.allLines blocks) = ([], TagBlock.tags line blocks) := by
  induction blocks generalizing line with
  | nil => rfl
  | cons b blocks ih =>
    have hmore : ∀ l ∈ b.more, Tag.marker? l = none :=
      fun l hl => Tag.marker?_of_plain (b.more_plain l hl)
    have hlength : line + 1 + b.more.length = line + b.lines.length := by
      rw [TagBlock.lines, List.length_cons]
      omega
    have hlines : TagBlock.allLines (b :: blocks) =
        b.marker :: (b.more ++ TagBlock.allLines blocks) := rfl
    rw [hlines, split_marker line b.marker?_marker, split_append _ hmore, ih, hlength,
      List.append_nil]
    rfl

/-- A comment is read as its division tells. -/
theorem TagSet.ofComment_eq {doc : DocComment} {d : Division}
    (h : d.lines = doc.lines.map String.toList) : ofComment doc = d.tagSet doc.line := by
  have hbefore : ∀ l ∈ d.before, Tag.marker? l = none :=
    fun l hl => Tag.marker?_of_plain (d.before_plain l hl)
  rw [ofComment, ← h, Division.lines, split_append _ hbefore, split_allLines, List.append_nil]
  rfl

namespace TagBlock

variable (line : Nat)

theorem tags_length (blocks : List TagBlock) : (tags line blocks).length = blocks.length := by
  induction blocks generalizing line with
  | nil => rfl
  | cons b blocks ih => rw [tags, List.length_cons, List.length_cons, ih]

/-- The tags of some blocks come before those of the blocks behind them. -/
theorem tags_append (front back : List TagBlock) :
    tags line (front ++ back) = tags line front ++ tags (line + (allLines front).length) back := by
  induction front generalizing line with
  | nil => rfl
  | cons b front ih =>
    rw [List.cons_append, tags, tags, ih, List.cons_append, Nat.add_assoc, ← List.length_append]
    rfl

/-- The tag of a block stands on the line of its marker. -/
theorem tags_getElem? (front : List TagBlock) (b : TagBlock) (back : List TagBlock) :
    (tags line (front ++ b :: back))[front.length]? =
      some (b.tag (line + (allLines front).length)) := by
  rw [tags_append, List.getElem?_append_right (tags_length line front).le, tags_length, Nat.sub_self]
  rfl

theorem le_line_of_mem_tags {blocks : List TagBlock} {t : Tag} (h : t ∈ tags line blocks) :
    line ≤ t.line := by
  induction blocks generalizing line with
  | nil => cases h
  | cons b blocks ih =>
    rcases List.mem_cons.mp h with rfl | h
    · exact Nat.le_refl line
    · exact (Nat.le_add_right line _).trans (ih _ h)

/-- The marker of a block comes before all lines of the blocks behind it. -/
theorem tags_pairwise (blocks : List TagBlock) :
    (tags line blocks).Pairwise fun s t => s.line < t.line := by
  induction blocks generalizing line with
  | nil => exact .nil
  | cons b blocks ih =>
    refine .cons (fun t ht => ?_) (ih _)
    have hlater := le_line_of_mem_tags _ ht
    rw [lines, List.length_cons] at hlater
    exact Nat.lt_of_lt_of_le (Nat.lt_add_of_pos_right (Nat.succ_pos _)) hlater

end TagBlock

-- ════════════════════════════════════════════════════════════════════════
-- Comments
-- ════════════════════════════════════════════════════════════════════════

/-- The lines of a comment have one division only, and the comment is read as it tells: the lines
before the first marker line are the description, each block is one tag, in order, on the line of its
marker, and the tags stand on later and later lines. -/
theorem TagSet.ofComment_divides (doc : DocComment) :
    ∃ d : Division, d.lines = doc.lines.map String.toList ∧
      (∀ other : Division, other.lines = doc.lines.map String.toList → other = d) ∧
      (ofComment doc).description = String.ofList d.description ∧
      (ofComment doc).tags.length = d.blocks.length ∧
      (∀ front b back, d.blocks = front ++ b :: back →
        (ofComment doc).tags[front.length]? =
          some (b.tag (doc.line + (d.before ++ TagBlock.allLines front).length))) ∧
      (ofComment doc).tags.Pairwise fun s t => s.line < t.line := by
  obtain ⟨d, hd⟩ := Division.exists_lines_eq (doc.lines.map String.toList)
  have hread := ofComment_eq hd
  refine ⟨d, hd, fun other hother => Division.lines_injective (hother.trans hd.symm), ?_, ?_, ?_, ?_⟩
  · rw [hread]
    rfl
  · rw [hread]
    exact TagBlock.tags_length _ d.blocks
  · intro front b back hblocks
    rw [hread, Division.tagSet, hblocks, List.length_append, ← Nat.add_assoc]
    exact TagBlock.tags_getElem? _ front b back
  · rw [hread]
    exact TagBlock.tags_pairwise _ d.blocks

end CustomFunctions
