import CustomFunctions.Proofs.Doc.ParamValue
import CustomFunctions.Proofs.TypeExpr.Advance

/-!
# Reading tags with checked steps

The readers of type blocks and of tag values once more, by byte offsets into the text, with every counter
that is lowered and every slice checked. They come to the same results as the readers that work on the
characters, so no text makes one of these steps fail, whether or not its brackets match.

## Main definitions

- `TypeBlock.closingBrace`, `offsetOf?` — byte offsets of what is searched in a text
- `TypeBlock.splitChecked` — a type block and what is behind it
- `ParamTag.readChecked?`, `ReturnsTag.readChecked` — the values of tags

## Main results

- `TypeBlock.closingBrace_eq` — the brace that closes a block, by its byte offset
- `reading_never_faults` — no text makes a checked step fail
-/

namespace CustomFunctions

open Checked

-- ════════════════════════════════════════════════════════════════════════
-- Type blocks
-- ════════════════════════════════════════════════════════════════════════

namespace TypeBlock

/-- The byte offset of the brace that brings the count of open braces to zero, in a text that begins at
the offset. -/
def closingBrace (depth offset : Nat) : List Char → Except Fault (Option Nat)
  | [] => .ok none
  | c :: rest =>
    if c = '{' then closingBrace (depth + 1) (offset + c.utf8Size) rest
    else if c = '}' then do
      let depth ← lower depth
      if depth = 0 then .ok (some offset) else closingBrace depth (offset + c.utf8Size) rest
    else closingBrace depth (offset + c.utf8Size) rest

/-- The type in the block that a tag value begins with, if it does, and the text behind the block. -/
def splitChecked (value : List Char) : Except Fault (Option (List Char) × List Char) := do
  let value := Text.trimStart value
  if value.head? = some '{' then
    let text := String.ofList value
    match ← closingBrace 0 0 value with
    | some stop =>
      let inner ← slice text 1 stop
      let after ← sliceFrom text (stop + 1)
      return (some (Text.trim inner.toList), Text.trimStart after.toList)
    | none =>
      let inner ← sliceFrom text 1
      return (some (Text.trim inner.toList), [])
  else return (none, value)

variable {depth : Nat} {s inner after : List Char}

theorem eq_of_map_body {c : Char} {found : Option (List Char × List Char)}
    (h : (found.map fun (inner, after) => (c :: inner, after)) = some (inner, after))
    (hfound : ∀ {inner}, found = some (inner, after) → s = inner ++ '}' :: after) :
    c :: s = inner ++ '}' :: after := by
  obtain ⟨⟨inner', after'⟩, hinner, hpair⟩ := Option.map_eq_some_iff.mp h
  cases hpair
  exact congrArg (c :: ·) (hfound hinner)

theorem eq_of_body? (h : body? depth s = some (inner, after)) : s = inner ++ '}' :: after := by
  fun_induction body? depth s generalizing inner with
  | case1 => cases h
  | case2 rest =>
    cases h
    rfl
  | case3 rest depth ih => exact eq_of_map_body h ih
  | case4 depth rest _ ih => exact eq_of_map_body h ih
  | case5 depth c rest _ _ ih => exact eq_of_map_body h ih

theorem map_body (c : Char) (offset : Nat) (found : Option (List Char × List Char)) :
    (found.map fun (inner, _) => offset + c.utf8Size + bytes inner) =
      (found.map fun (inner, after) => (c :: inner, after)).map fun (inner, _) =>
        offset + bytes inner := by
  cases found with
  | none => rfl
  | some found =>
    show some (offset + c.utf8Size + bytes found.1) = some (offset + bytes (c :: found.1))
    rw [bytes_cons, Nat.add_assoc]

/-- Inside the block at least one brace is open, so the count is positive wherever it is lowered. -/
theorem closingBrace_eq (depth offset : Nat) (s : List Char) :
    closingBrace (depth + 1) offset s =
      .ok ((body? depth s).map fun (inner, _) => offset + bytes inner) := by
  fun_induction body? depth s generalizing offset with
  | case1 => rfl
  | case2 => rfl
  | case3 rest depth ih =>
    rw [closingBrace, if_neg (by decide), if_pos rfl]
    show closingBrace (depth + 1) _ rest = _
    rw [ih, map_body]
  | case4 depth rest _ ih => rw [closingBrace, if_pos rfl, ih, map_body]
  | case5 depth c rest hclosing hopening ih =>
    rw [closingBrace, if_neg hopening, if_neg hclosing, ih, map_body]

theorem slice_block (inner after : List Char) :
    slice (String.ofList ('{' :: (inner ++ '}' :: after))) 1 (1 + bytes inner) =
      .ok (String.ofList inner) :=
  slice_append ['{'] inner ('}' :: after)

theorem sliceFrom_block (inner after : List Char) :
    sliceFrom (String.ofList ('{' :: (inner ++ '}' :: after))) (1 + bytes inner + 1) =
      .ok (String.ofList after) := by
  have hbytes : bytes ('{' :: inner) = 1 + bytes inner := bytes_cons '{' inner
  rw [← hbytes]
  exact sliceFrom_behind (by decide) ('{' :: inner) after

theorem splitChecked_eq (value : List Char) : splitChecked value = .ok (split value) := by
  unfold splitChecked split
  dsimp only
  generalize Text.trimStart value = value
  by_cases hhead : value.head? = some '{'
  · obtain ⟨rest, rfl⟩ := List.head?_eq_some_iff.mp hhead
    have hclosing : closingBrace 0 0 ('{' :: rest) =
        .ok ((body? 0 rest).map fun (inner, _) => 1 + bytes inner) := closingBrace_eq 0 1 rest
    rw [if_pos hhead, hclosing]
    cases hbody : body? 0 rest with
    | none =>
      have hinner : sliceFrom (String.ofList ('{' :: rest)) 1 = .ok (String.ofList rest) :=
        sliceFrom_append ['{'] rest
      show (sliceFrom (String.ofList ('{' :: rest)) 1 >>= _) = _
      rw [hinner]
      show Except.ok (some (Text.trim (String.ofList rest).toList), []) = _
      rw [String.toList_ofList]
      simp only [hbody]
    | some found =>
      obtain ⟨inner, after⟩ := found
      obtain rfl := eq_of_body? hbody
      show (slice _ 1 (1 + bytes inner) >>= _) = _
      rw [slice_block]
      show (sliceFrom _ (1 + bytes inner + 1) >>= _) = _
      rw [sliceFrom_block]
      show Except.ok (some (Text.trim (String.ofList inner).toList),
        Text.trimStart (String.ofList after).toList) = _
      rw [String.toList_ofList, String.toList_ofList]
      simp only [hbody]
  · rw [if_neg hhead]
    split
    · exact absurd rfl hhead
    · rfl

/-- The slices of a block with a character of two bytes in it, and one brace too many behind it. -/
example : splitChecked "\x7bé\x7d\x7d".toList = .ok (some ['é'], ['}']) := by decide +kernel

end TypeBlock

-- ════════════════════════════════════════════════════════════════════════
-- Values of tags
-- ════════════════════════════════════════════════════════════════════════

/-- The byte offset of the first character of a kind. -/
def offsetOf? (p : Char → Bool) : List Char → Option Nat
  | [] => none
  | c :: rest => if p c then some 0 else (offsetOf? p rest).map (c.utf8Size + ·)

theorem offsetOf?_mark (mark : Char) (s : List Char) :
    offsetOf? (· = mark) s = (ParamTag.cutAt? mark s).map fun (before, _) => bytes before := by
  induction s with
  | nil => rfl
  | cons c s ih =>
    by_cases hc : c = mark
    · rw [offsetOf?, ParamTag.cutAt?, if_pos (decide_eq_true hc), if_pos hc]
      rfl
    · rw [offsetOf?, ParamTag.cutAt?, if_neg (by simpa using hc), if_neg hc, ih, Option.map_map,
        Option.map_map]
      congr 1
      funext found
      exact (bytes_cons c found.1).symm

/-- A text without such a character is taken to its end. -/
theorem offsetOf?_getD (p : Char → Bool) (s : List Char) :
    (offsetOf? p s).getD (bytes s) = bytes (s.takeWhile (! p ·)) := by
  induction s with
  | nil => rfl
  | cons c s ih =>
    by_cases hc : p c = true
    · rw [offsetOf?, if_pos hc, List.takeWhile_cons_of_neg (by simpa using hc)]
      rfl
    · rw [offsetOf?, if_neg hc, List.takeWhile_cons_of_pos (by simpa using hc), bytes_cons, bytes_cons,
        ← ih]
      cases offsetOf? p s <;> rfl

namespace ParamTag

variable {mark : Char} {s before after : List Char}

theorem eq_of_cutAt? (h : cutAt? mark s = some (before, after)) : s = before ++ mark :: after := by
  induction s generalizing before with
  | nil => cases h
  | cons c s ih =>
    rw [cutAt?] at h
    split at h
    · next hc =>
      cases h
      rw [hc]
      rfl
    · obtain ⟨⟨before', after'⟩, hcut, hpair⟩ := Option.map_eq_some_iff.mp h
      cases hpair
      rw [ih hcut]
      rfl

/-- The name in brackets with its default value, and the text behind the brackets. -/
def bracketedChecked? (inner : List Char) :
    Except Fault (Option (List Char × Option (List Char) × List Char)) :=
  match offsetOf? (· = ']') inner with
  | none => return none
  | some stop => do
    let content ← sliceTo (String.ofList inner) stop
    let after ← sliceFrom (String.ofList inner) (stop + 1)
    match cutAt? '=' content.toList with
    | some (name, value) => return some (Text.trim name, some (Text.trim value), after.toList)
    | none => return some (Text.trim content.toList, none, after.toList)

/-- The name up to the first blank, and the text behind it. -/
def plainChecked (text : List Char) : Except Fault (List Char × List Char) := do
  let stop := (offsetOf? Text.isBlank text).getD (bytes text)
  let name ← sliceTo (String.ofList text) stop
  let after ← sliceFrom (String.ofList text) stop
  return (name.toList, after.toList)

/-- Whether a parameter is optional, its name and its default value, and the text behind them. -/
def nameChecked? (text : List Char) :
    Except Fault (Option (Bool × List Char × Option (List Char) × List Char)) :=
  match Text.trimStart text with
  | '[' :: inner => do
    return (← bracketedChecked? inner).map fun (name, value, after) => (true, name, value, after)
  | text => do
    let (name, after) ← plainChecked text
    return some (false, name, none, after)

/-- What the value of a parameter tag says; none if it names no parameter. -/
def readChecked? (value : String) : Except Fault (Option ParamTag) := do
  let (typeText, rest) ← TypeBlock.splitChecked value.toList
  let found ← nameChecked? rest
  return found.bind fun (optional, name, defaultText, after) =>
    if name = [] then none else some (ofParts typeText name optional defaultText after)

theorem bracketedChecked?_eq (inner : List Char) :
    bracketedChecked? inner = .ok (bracketed? inner) := by
  rw [bracketedChecked?, offsetOf?_mark, bracketed?]
  cases hcut : cutAt? ']' inner with
  | none => rfl
  | some found =>
    obtain ⟨content, after⟩ := found
    obtain rfl := eq_of_cutAt? hcut
    show (sliceTo _ (bytes content) >>= _) = _
    rw [sliceTo_append]
    show (sliceFrom _ (bytes content + 1) >>= _) = _
    rw [sliceFrom_behind (by decide)]
    show (match cutAt? '=' (String.ofList content).toList with
      | some (name, value) => _
      | none => _) = _
    rw [String.toList_ofList, Option.map_some]
    dsimp only
    cases hvalue : cutAt? '=' content with
    | none =>
      show Except.ok (some (Text.trim content, none, (String.ofList after).toList)) = _
      rw [String.toList_ofList]
    | some found =>
      show Except.ok (some (_, _, (String.ofList after).toList)) = _
      rw [String.toList_ofList]

theorem plainChecked_eq (text : List Char) :
    plainChecked text =
      .ok (text.takeWhile (! Text.isBlank ·), text.dropWhile (! Text.isBlank ·)) := by
  have hto := sliceTo_append (text.takeWhile (! Text.isBlank ·)) (text.dropWhile (! Text.isBlank ·))
  have hfrom := sliceFrom_append (text.takeWhile (! Text.isBlank ·)) (text.dropWhile (! Text.isBlank ·))
  rw [List.takeWhile_append_dropWhile] at hto hfrom
  rw [plainChecked, offsetOf?_getD, hto]
  show (sliceFrom _ _ >>= _) = _
  rw [hfrom]
  show Except.ok (_, _) = _
  rw [String.toList_ofList, String.toList_ofList]

/-- What the text behind a type block names. -/
def name? (text : List Char) : Option (Bool × List Char × Option (List Char) × List Char) :=
  match Text.trimStart text with
  | '[' :: inner => (bracketed? inner).map fun (name, value, after) => (true, name, value, after)
  | text => some (false, text.takeWhile (! Text.isBlank ·), none, text.dropWhile (! Text.isBlank ·))

theorem nameChecked?_eq (text : List Char) : nameChecked? text = .ok (name? text) := by
  rw [nameChecked?, name?]
  split
  · rw [bracketedChecked?_eq]
    rfl
  · rw [plainChecked_eq]
    rfl

theorem readChecked?_eq (value : String) : readChecked? value = .ok (read? value) := by
  rw [readChecked?, TypeBlock.splitChecked_eq, read?]
  obtain ⟨typeText, rest⟩ := TypeBlock.split value.toList
  show (nameChecked? rest >>= _) = _
  rw [nameChecked?_eq]
  dsimp only
  cases hname : name? rest with
  | none =>
    split
    · next hfound => cases hname.symm.trans hfound
    · rfl
  | some found =>
    split
    · next hfound =>
      cases hname.symm.trans hfound
      rfl
    · next hfound => cases hname.symm.trans hfound

end ParamTag

/-- What the value of a result tag says. -/
def ReturnsTag.readChecked (value : String) : Except Fault ReturnsTag := do
  let (typeText, rest) ← TypeBlock.splitChecked value.toList
  return {
    typeText := typeText.map String.ofList
    description := String.ofList (TypeBlock.description rest) }

theorem ReturnsTag.readChecked_eq (value : String) : readChecked value = .ok (read value) := by
  rw [readChecked, TypeBlock.splitChecked_eq]
  rfl

/-- No text makes a reader lower a counter that is zero, cut a text outside its bounds or inside a
character, or go down without end: with each of these steps checked, all readers come to the results that
they have without checks. -/
theorem reading_never_faults (text : String) :
    TypeExpr.parseChecked text = .ok (TypeExpr.parse text) ∧
      TypeBlock.splitChecked text.toList = .ok (TypeBlock.split text.toList) ∧
      ParamTag.readChecked? text = .ok (ParamTag.read? text) ∧
      ReturnsTag.readChecked text = .ok (ReturnsTag.read text) :=
  ⟨TypeExpr.parseChecked_eq text, TypeBlock.splitChecked_eq text.toList, ParamTag.readChecked?_eq text,
    ReturnsTag.readChecked_eq text⟩

end CustomFunctions
