import CustomFunctions.Proofs.Failure

/-!
# Checked steps

Steps that a program with unsigned counters and with byte offsets into texts can take under conditions
only. A checked step ends in a fault where its condition fails, so a run of checked steps that comes to a
result has kept all of them.

## Main definitions

- `Fault` — the conditions that can fail
- `Checked.lower` — a counter, lowered
- `Checked.dropTo`, `Checked.cut` — parts of a list between indices
- `Checked.sliceFrom`, `Checked.sliceTo`, `Checked.slice` — parts of a text between byte offsets

## Main results

- `Checked.cut_append`, `Checked.slice_append` — what stands between others is a part of the whole
-/

namespace CustomFunctions

/-- A step that cannot be taken. -/
inductive Fault where
  /-- A counter is lowered below zero. -/
  | counter
  /-- A slice reaches beyond the text or begins or ends inside a character. -/
  | slice
  /-- Calls are nested more deeply than is granted. -/
  | depth
deriving DecidableEq

namespace Checked

/-- The counter, one less. -/
def lower : Nat → Except Fault Nat
  | 0 => .error .counter
  | n + 1 => .ok n

/-- The list from an index on. -/
def dropTo {α : Type} (xs : List α) (start : Nat) : Except Fault (List α) :=
  if start ≤ xs.length then .ok (xs.drop start) else .error .slice

/-- The list up to an index. -/
def takeTo {α : Type} (xs : List α) (stop : Nat) : Except Fault (List α) :=
  if stop ≤ xs.length then .ok (xs.take stop) else .error .slice

/-- The elements of a list between two indices. -/
def cut {α : Type} (xs : List α) (start stop : Nat) : Except Fault (List α) := do
  dropTo (← takeTo xs stop) start

/-- The text from a byte offset on. -/
def sliceFrom (s : String) (start : Nat) : Except Fault String :=
  if h : (String.Pos.Raw.mk start).IsValid s then .ok (s.sliceFrom (s.pos ⟨start⟩ h)).copy
  else .error .slice

/-- A slice does not begin inside a character of two bytes. -/
example : sliceFrom "é" 1 = .error .slice := by decide +kernel

/-- The text up to a byte offset. -/
def sliceTo (s : String) (stop : Nat) : Except Fault String :=
  if h : (String.Pos.Raw.mk stop).IsValid s then .ok (s.sliceTo (s.pos ⟨stop⟩ h)).copy
  else .error .slice

/-- The text between two byte offsets. -/
def slice (s : String) (start stop : Nat) : Except Fault String := do
  sliceFrom (← sliceTo s stop) start

-- ════════════════════════════════════════════════════════════════════════
-- Indices
-- ════════════════════════════════════════════════════════════════════════

section Indices

variable {α : Type} {xs ys : List α} {x : α}

/-- The index at which an end of a list begins. -/
def place (xs ys : List α) : Nat :=
  xs.length - ys.length

theorem place_self (xs : List α) : place xs xs = 0 :=
  Nat.sub_self _

theorem place_le (xs ys : List α) : place xs ys ≤ xs.length :=
  Nat.sub_le _ _

theorem place_add_length (h : ys <:+ xs) : place xs ys + ys.length = xs.length :=
  Nat.sub_add_cancel h.length_le

theorem drop_place (h : ys <:+ xs) : xs.drop (place xs ys) = ys :=
  (List.suffix_iff_eq_drop.mp h).symm

theorem place_drop {start : Nat} (h : start ≤ xs.length) : place xs (xs.drop start) = start := by
  rw [place, List.length_drop, Nat.sub_sub_self h]

theorem getElem?_place (h : ys <:+ xs) (ahead : Nat) :
    xs[place xs ys + ahead]? = ys[ahead]? := by
  rw [← List.getElem?_drop, drop_place h]

theorem place_cons (h : x :: ys <:+ xs) : place xs (x :: ys) + 1 = place xs ys := by
  have := place_add_length h
  have := place_add_length ((List.suffix_cons x ys).trans h)
  rw [List.length_cons] at *
  omega

theorem dropTo_place (h : ys <:+ xs) : dropTo xs (place xs ys) = .ok ys := by
  rw [dropTo, if_pos (place_le xs ys), drop_place h]

theorem cut_append (xs ys zs : List α) :
    cut (xs ++ ys ++ zs) xs.length (xs.length + ys.length) = .ok ys := by
  rw [cut, takeTo, if_pos (by simp), ← List.length_append, List.take_left]
  show dropTo (xs ++ ys) xs.length = .ok ys
  rw [dropTo, if_pos (by simp), List.drop_left]

end Indices

-- ════════════════════════════════════════════════════════════════════════
-- Byte offsets
-- ════════════════════════════════════════════════════════════════════════

variable {c : Char}

/-- The bytes that characters take up in a text. -/
def bytes (s : List Char) : Nat :=
  (String.ofList s).utf8ByteSize

theorem bytes_nil : bytes [] = 0 :=
  rfl

theorem bytes_cons (c : Char) (s : List Char) : bytes (c :: s) = c.utf8Size + bytes s := by
  rw [bytes, String.ofList_cons, String.utf8ByteSize_append, String.utf8ByteSize_singleton]
  rfl

theorem bytes_append (s t : List Char) : bytes (s ++ t) = bytes s + bytes t := by
  rw [bytes, String.ofList_append, String.utf8ByteSize_append]
  rfl

theorem isValid_append (s t : String) : (String.Pos.Raw.mk s.utf8ByteSize).IsValid (s ++ t) :=
  String.Pos.Raw.isValid_rawEndPos.append_right t

theorem splits_append (s t : String) :
    ((s ++ t).pos ⟨s.utf8ByteSize⟩ (isValid_append s t)).Splits s t :=
  String.Pos.splits_append_rawEndPos

theorem sliceFrom_append (s t : List Char) :
    sliceFrom (String.ofList (s ++ t)) (bytes s) = .ok (String.ofList t) := by
  rw [String.ofList_append, bytes, sliceFrom, dif_pos (isValid_append _ _),
    (splits_append _ _).copy_sliceFrom_eq]

theorem sliceTo_append (s t : List Char) :
    sliceTo (String.ofList (s ++ t)) (bytes s) = .ok (String.ofList s) := by
  rw [String.ofList_append, bytes, sliceTo, dif_pos (isValid_append _ _),
    (splits_append _ _).copy_sliceTo_eq]

theorem slice_append (s t u : List Char) :
    slice (String.ofList (s ++ t ++ u)) (bytes s) (bytes s + bytes t) = .ok (String.ofList t) := by
  rw [slice, ← bytes_append, sliceTo_append]
  exact sliceFrom_append s t

/-- Behind a character of one byte the text goes on at the next offset. -/
theorem sliceFrom_behind (hc : c.utf8Size = 1) (s t : List Char) :
    sliceFrom (String.ofList (s ++ c :: t)) (bytes s + 1) = .ok (String.ofList t) := by
  have hbytes : bytes s + 1 = bytes (s ++ [c]) := by
    rw [bytes_append, bytes_cons, bytes_nil, hc]
  rw [List.append_cons, hbytes]
  exact sliceFrom_append _ _

end Checked

end CustomFunctions
