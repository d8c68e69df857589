import Mathlib.Data.List.Basic
import Mathlib.Data.List.Induction

/-!
# The first one wins

Offers are made one after the other, and each one is kept unless it clashes with an offer kept
before it. An offer that is not kept claims nothing, so what turns an offer away is always an offer
that is kept. The ledger of the offers shows for each of them which kept ones it clashes with.

## Main definitions

- `Row` — an offer with its rivals
- `ledger` — the rows of offers made in order
- `kept` — the offers without rivals
- `IsLedger` — the rule that determines all rows
- `outcomes` — the declarations behind the offers, with the offers that are kept
-/

namespace CustomFunctions.FirstWins

variable {α : Type}

/-- An offer and the offers kept before it that it clashes with. -/
structure Row (α : Type) where
  offer : α
  rivals : List α

namespace Row

/-- An offer is kept if it has no rivals. -/
def isKept (row : Row α) : Bool :=
  row.rivals.isEmpty

theorem isKept_iff (row : Row α) : row.isKept = true ↔ row.rivals = [] := by
  simp [isKept]

end Row

/-- The offers that are kept, in order. -/
def kept (rows : List (Row α)) : List α :=
  (rows.filter Row.isKept).map (·.offer)

@[simp] theorem kept_nil : kept ([] : List (Row α)) = [] := rfl

@[simp] theorem kept_append (rows rows' : List (Row α)) :
    kept (rows ++ rows') = kept rows ++ kept rows' := by
  simp [kept]

theorem kept_cons (row : Row α) (rows : List (Row α)) :
    kept (row :: rows) = kept [row] ++ kept rows :=
  kept_append [row] rows

theorem kept_single (row : Row α) :
    kept [row] = if row.isKept then [row.offer] else [] := by
  cases h : row.isKept <;> simp [kept, h]

theorem mem_kept {rows : List (Row α)} {x : α} :
    x ∈ kept rows ↔ ∃ row ∈ rows, row.isKept = true ∧ row.offer = x := by
  simp [kept, and_assoc]

variable (clash : α → α → Prop) [DecidableRel clash]

/-- The row of an offer made when the offers in `held` are kept. -/
def settle (held : List α) (x : α) : Row α :=
  ⟨x, held.filter fun k => clash k x⟩

/-- The rows of offers made in order, when the offers in `held` are kept already. -/
def ledger (held : List α) : List α → List (Row α)
  | [] => []
  | x :: rest => settle clash held x :: ledger (held ++ kept [settle clash held x]) rest

/-- Every row shows its offer among the offers kept before it. -/
def IsLedger (held : List α) (rows : List (Row α)) : Prop :=
  ∀ before row after, rows = before ++ row :: after →
    row = settle clash (held ++ kept before) row.offer

theorem settle_isKept {held : List α} {x : α} :
    (settle clash held x).isKept = true ↔ ∀ k ∈ held, ¬ clash k x := by
  simp [Row.isKept_iff, settle, List.filter_eq_nil_iff]

theorem kept_ledger_cons (held : List α) (x : α) (xs : List α) :
    kept (ledger clash held (x :: xs)) =
      kept [settle clash held x] ++ kept (ledger clash (held ++ kept [settle clash held x]) xs) :=
  kept_cons _ _

/-- Every held offer that clashes is among the rivals. -/
theorem find?_rivals (held : List α) (x : α) {p : α → Bool} (h : ∀ k, p k = true → clash k x) :
    (settle clash held x).rivals.find? p = held.find? p := by
  rw [settle, List.find?_filter]
  congr 1
  funext k
  cases hk : p k with
  | false => simp
  | true => simp [h k hk]

theorem ledger_append (held xs ys : List α) :
    ledger clash held (xs ++ ys) =
      ledger clash held xs ++ ledger clash (held ++ kept (ledger clash held xs)) ys := by
  induction xs generalizing held with
  | nil => simp [ledger]
  | cons x xs ih =>
    simp only [List.cons_append, ledger]
    rw [ih, kept_cons (settle clash held x) (ledger _ _ xs), List.append_assoc]

@[simp] theorem ledger_offers (held xs : List α) :
    (ledger clash held xs).map (·.offer) = xs := by
  induction xs generalizing held with
  | nil => rfl
  | cons x xs ih =>
    rw [ledger, List.map_cons, ih]
    rfl

theorem mem_of_mem_kept {held xs : List α} {x : α} (h : x ∈ kept (ledger clash held xs)) :
    x ∈ xs := by
  obtain ⟨row, hrow, _, rfl⟩ := mem_kept.mp h
  rw [← ledger_offers clash held xs]
  exact List.mem_map_of_mem hrow

theorem ledger_isLedger (held xs : List α) : IsLedger clash held (ledger clash held xs) := by
  induction xs generalizing held with
  | nil =>
    intro before row after h
    simp [ledger] at h
  | cons x xs ih =>
    intro before row after h
    rw [ledger] at h
    cases before with
    | nil =>
      obtain ⟨rfl, _⟩ := List.cons.inj h
      rw [kept_nil, List.append_nil]
      rfl
    | cons first before =>
      obtain ⟨rfl, hrest⟩ := List.cons.inj h
      rw [kept_cons, ← List.append_assoc]
      exact ih _ before row after hrest

/-- The rule leaves no choice: rows that keep it are those of the ledger. -/
theorem IsLedger.eq_ledger {held : List α} {rows : List (Row α)}
    (h : IsLedger clash held rows) : rows = ledger clash held (rows.map (·.offer)) := by
  induction rows generalizing held with
  | nil => rfl
  | cons row rows ih =>
    have hrow : row = settle clash held row.offer := by
      simpa using h [] row rows rfl
    rw [List.map_cons, ledger, ← hrow, ← ih]
    intro before row' after hsplit
    rw [List.append_assoc, ← kept_cons]
    exact h (row :: before) row' after (by rw [hsplit, List.cons_append])

/-- Kept offers do not clash with those kept before them. -/
theorem kept_pairwise (held : List α) (h : held.Pairwise fun k x => ¬ clash k x)
    (xs : List α) :
    (held ++ kept (ledger clash held xs)).Pairwise fun k x => ¬ clash k x := by
  induction xs generalizing held with
  | nil => simpa [ledger] using h
  | cons x xs ih =>
    rw [kept_ledger_cons, ← List.append_assoc]
    apply ih
    rw [kept_single]
    split
    · next hkept =>
      rw [List.pairwise_append]
      refine ⟨h, List.pairwise_singleton _ _, ?_⟩
      intro k hk y hy
      obtain rfl := List.mem_singleton.mp hy
      exact (settle_isKept clash).mp hkept k hk
    · simpa using h

/-- Of offers that do not clash with each other those are kept that clash with no held one. -/
theorem kept_of_pairwise {xs : List α} (h : xs.Pairwise fun x y => ¬ clash x y)
    (held : List α) :
    kept (ledger clash held xs) = xs.filter fun x => ∀ k ∈ held, ¬ clash k x := by
  induction xs generalizing held with
  | nil => rfl
  | cons x xs ih =>
    obtain ⟨hx, hxs⟩ := List.pairwise_cons.mp h
    rw [kept_ledger_cons, ih hxs, kept_single]
    by_cases hkept : (settle clash held x).isKept = true
    · rw [if_pos hkept, List.filter_cons_of_pos (by simpa using (settle_isKept clash).mp hkept)]
      refine congrArg (x :: ·) (List.filter_congr fun y hy => ?_)
      have hxy := hx y hy
      simp [settle, hxy, or_imp, forall_and]
    · have hnot := (settle_isKept clash).not.mp hkept
      rw [if_neg hkept, List.append_nil, List.nil_append,
        List.filter_cons_of_neg (by simpa using hnot)]

/-- Offers that clash neither with each other nor with held ones have no rivals. -/
theorem ledger_of_pairwise {xs : List α} (h : xs.Pairwise fun x y => ¬ clash x y) {held : List α}
    (hheld : ∀ k ∈ held, ∀ x ∈ xs, ¬ clash k x) :
    ledger clash held xs = xs.map fun x => ⟨x, []⟩ := by
  induction xs generalizing held with
  | nil => rfl
  | cons x xs ih =>
    obtain ⟨hx, hxs⟩ := List.pairwise_cons.mp h
    have hsettle : settle clash held x = ⟨x, []⟩ := by
      rw [settle, List.filter_eq_nil_iff.mpr]
      intro k hk
      simpa using hheld k hk x List.mem_cons_self
    rw [ledger, hsettle, List.map_cons, ih hxs]
    intro k hk y hy
    rcases List.mem_append.mp hk with hk | hk
    · exact hheld k hk y (List.mem_cons_of_mem _ hy)
    · obtain rfl := List.mem_singleton.mp hk
      exact hx y hy

/-- Nothing is kept of offers that all clash with held ones. -/
theorem kept_ledger_of_clash {held xs : List α} (h : ∀ x ∈ xs, ∃ k ∈ held, clash k x) :
    kept (ledger clash held xs) = [] := by
  induction xs with
  | nil => rfl
  | cons x xs ih =>
    obtain ⟨⟨k, hk, hclash⟩, hxs⟩ := List.forall_mem_cons.mp h
    have hlost : ¬ (settle clash held x).isKept = true := by
      rw [settle_isKept]
      exact fun hfree => hfree k hk hclash
    rw [kept_ledger_cons, kept_single, if_neg hlost, List.append_nil, List.nil_append, ih hxs]

/-- Whoever is turned away clashes with an offer that is kept. -/
theorem exists_kept_clash (held : List α) {xs : List α} {x : α} (hx : x ∈ xs)
    (hnot : x ∉ kept (ledger clash held xs)) :
    ∃ k ∈ held ++ kept (ledger clash held xs), clash k x := by
  induction xs generalizing held with
  | nil => simp at hx
  | cons y xs ih =>
    rw [kept_ledger_cons, List.mem_append, not_or] at hnot
    rw [kept_ledger_cons, ← List.append_assoc]
    rcases List.mem_cons.mp hx with rfl | hx
    · have hrival : ¬ ∀ k ∈ held, ¬ clash k x := by
        rw [← settle_isKept clash]
        intro hkept
        exact hnot.1 (by rw [kept_single, if_pos hkept]; simp [settle])
      push Not at hrival
      obtain ⟨k, hk, hclash⟩ := hrival
      exact ⟨k, by simp [hk], hclash⟩
    · exact ih _ hx hnot.2

/-- Where clashing is transitive, an offer is kept if it clashes with no earlier one at all. -/
theorem isKept_iff_of_trans (htrans : ∀ {a b c : α}, clash a b → clash b c → clash a c)
    {xs : List α} {before after : List (Row α)} {row : Row α}
    (h : ledger clash [] xs = before ++ row :: after) :
    row.isKept = true ↔ ∀ r ∈ before, ¬ clash r.offer row.offer := by
  have hledger := ledger_isLedger clash [] xs
  have hrow : row = settle clash (kept before) row.offer := hledger before row after h
  rw [hrow, settle_isKept]
  constructor
  · intro hkept r hr hclash
    obtain ⟨earlier, later, rfl⟩ := List.append_of_mem hr
    have hr' : r = settle clash (kept earlier) r.offer :=
      hledger earlier r (later ++ row :: after) (by simpa using h)
    by_cases hk : r.isKept = true
    · exact hkept r.offer (mem_kept.mpr ⟨r, hr, hk, rfl⟩) hclash
    -- whoever turned `r` away is kept and clashes with the offer as well
    · rw [hr', settle_isKept] at hk
      push Not at hk
      obtain ⟨k, hmem, hrival⟩ := hk
      exact hkept k (by simp [hmem]) (htrans hrival hclash)
  · intro hall k hk
    obtain ⟨r, hr, _, rfl⟩ := mem_kept.mp hk
    exact hall r hr

/-- If whatever clashes with a member of a class belongs to it, the first member that is offered is
the first one that is kept. -/
theorem find?_kept {p : α → Bool} (hclass : ∀ a b, clash a b → p b = true → p a = true)
    (held xs : List α) :
    (held ++ kept (ledger clash held xs)).find? p = (held ++ xs).find? p := by
  induction xs generalizing held with
  | nil => simp [ledger]
  | cons x xs ih =>
    have hoffered : (held ++ x :: xs).find? p = ((held ++ [x]).find? p).or (xs.find? p) := by
      rw [← List.find?_append, List.append_assoc, List.singleton_append]
    rw [kept_ledger_cons, ← List.append_assoc, ih, hoffered, List.find?_append]
    congr 1
    rw [kept_single, List.find?_append, List.find?_append]
    split
    · rfl
    -- a member of the class is turned away only by another one
    · next hnot =>
      rw [settle_isKept] at hnot
      push Not at hnot
      obtain ⟨k, hk, hclash⟩ := hnot
      cases hx : p x with
      | false => simp [hx]
      | true =>
        have hsome : (held.find? p).isSome = true := by
          rw [List.find?_isSome]
          exact ⟨k, hk, hclass k x hclash hx⟩
        obtain ⟨y, hy⟩ := Option.isSome_iff_exists.mp hsome
        simp [hy]

-- ════════════════════════════════════════════════════════════════════════
-- Owners of keys
-- ════════════════════════════════════════════════════════════════════════

omit [DecidableRel clash] in
/-- Among offers that do not clash a key has at most one owner. -/
theorem countP_owner_le_one {p : α → Bool}
    (hsame : ∀ a b, p a = true → p b = true → clash a b) {xs : List α}
    (h : xs.Pairwise fun a b => ¬ clash a b) : xs.countP p ≤ 1 := by
  induction xs with
  | nil => simp
  | cons x xs ih =>
    obtain ⟨hx, hxs⟩ := List.pairwise_cons.mp h
    rw [List.countP_cons]
    by_cases hpx : p x = true
    · have hnone : xs.countP p = 0 := by
        rw [List.countP_eq_zero]
        intro y hy hpy
        exact hx y hy (hsame x y hpx hpy)
      simp [hnone, hpx]
    · simpa [hpx] using ih hxs

/-- A key with at most one owner is owned by the first one found. -/
theorem filter_eq_toList_find? {p : α → Bool} {xs : List α} (h : xs.countP p ≤ 1) :
    xs.filter p = (xs.find? p).toList := by
  induction xs with
  | nil => rfl
  | cons x xs ih =>
    rw [List.countP_cons] at h
    by_cases hpx : p x = true
    · have hnone : xs.filter p = [] := by
        rw [List.filter_eq_nil_iff, ← List.countP_eq_zero]
        rw [if_pos hpx] at h
        omega
      rw [List.filter_cons_of_pos hpx, List.find?_cons_of_pos hpx, hnone]
      rfl
    · rw [List.filter_cons_of_neg hpx, List.find?_cons_of_neg hpx]
      exact ih (by omega)

-- ════════════════════════════════════════════════════════════════════════
-- Declarations that need not make an offer
-- ════════════════════════════════════════════════════════════════════════

section Outcomes

variable {δ : Type}

/-- What becomes of declarations that make an offer or none: each one keeps its offer if the offer
is kept. -/
def outcomes (held : List α) : List (δ × Option α) → List (δ × Option α)
  | [] => []
  | (d, none) :: rest => (d, none) :: outcomes held rest
  | (d, some x) :: rest =>
    (d, if (settle clash held x).isKept then some x else none)
      :: outcomes (held ++ kept [settle clash held x]) rest

@[simp] theorem outcomes_declared (held : List α) (ds : List (δ × Option α)) :
    (outcomes clash held ds).map (·.1) = ds.map (·.1) := by
  fun_induction outcomes clash held ds <;> simp_all

/-- The offers that declarations still have are those that the ledger keeps. -/
theorem outcomes_offers (held : List α) (ds : List (δ × Option α)) :
    (outcomes clash held ds).filterMap (·.2) =
      kept (ledger clash held (ds.filterMap (·.2))) := by
  fun_induction outcomes clash held ds with
  | case1 => rfl
  | case2 held d rest ih => simpa using ih
  | case3 held d x rest ih =>
    rw [List.filterMap_cons_some (show ((d, some x) : δ × Option α).2 = some x from rfl),
      kept_ledger_cons, ← ih, kept_single]
    split <;> simp [settle]

theorem mem_of_mem_outcomes {held : List α} {ds : List (δ × Option α)} {d : δ} {x : α}
    (h : (d, some x) ∈ outcomes clash held ds) : (d, some x) ∈ ds := by
  fun_induction outcomes clash held ds with
  | case1 => exact h
  | case2 held d' rest ih =>
    rcases List.mem_cons.mp h with heq | h
    · exact nomatch heq
    · exact List.mem_cons_of_mem _ (ih h)
  | case3 held d' y rest ih =>
    rcases List.mem_cons.mp h with heq | h
    · split at heq
      · rw [heq]
        exact List.mem_cons_self
      · exact nomatch heq
    · exact List.mem_cons_of_mem _ (ih h)

/-- A declaration without an offer at the end had none, or it was turned away. -/
theorem lost_of_mem_outcomes {held : List α} {ds : List (δ × Option α)} {d : δ}
    (h : (d, none) ∈ outcomes clash held ds) :
    (d, none) ∈ ds ∨ ∃ row ∈ ledger clash held (ds.filterMap (·.2)),
      row.isKept = false ∧ (d, some row.offer) ∈ ds := by
  fun_induction outcomes clash held ds with
  | case1 => exact .inl h
  | case2 held d' rest ih =>
    rcases List.mem_cons.mp h with heq | h
    · exact .inl (by rw [heq]; exact List.mem_cons_self)
    · refine (ih h).imp (List.mem_cons_of_mem _) ?_
      rintro ⟨row, hrow, hlost, hmem⟩
      exact ⟨row, by simpa using hrow, hlost, List.mem_cons_of_mem _ hmem⟩
  | case3 held d' x rest ih =>
    have hledger : ledger clash held (((d', some x) :: rest).filterMap (·.2)) =
        settle clash held x ::
          ledger clash (held ++ kept [settle clash held x]) (rest.filterMap (·.2)) := rfl
    rw [hledger]
    rcases List.mem_cons.mp h with heq | h
    · obtain ⟨rfl, hnone⟩ := Prod.mk.inj heq
      refine .inr ⟨settle clash held x, List.mem_cons_self, ?_, List.mem_cons_self⟩
      by_contra hkept
      rw [if_pos (by simpa using hkept)] at hnone
      exact nomatch hnone
    · refine (ih h).imp (List.mem_cons_of_mem _) ?_
      rintro ⟨row, hrow, hlost, hmem⟩
      exact ⟨row, List.mem_cons_of_mem _ hrow, hlost, List.mem_cons_of_mem _ hmem⟩

/-- No declaration loses anything exactly if each one makes an offer and all offers are kept. -/
theorem outcomes_all_isSome (held : List α) (ds : List (δ × Option α)) :
    (∀ o ∈ outcomes clash held ds, o.2.isSome = true) ↔
      (∀ o ∈ ds, o.2.isSome = true) ∧
        ∀ row ∈ ledger clash held (ds.filterMap (·.2)), row.isKept = true := by
  fun_induction outcomes clash held ds with
  | case1 => simp [ledger]
  | case2 => simp
  | case3 held d x rest ih =>
    have hledger : ledger clash held (((d, some x) :: rest).filterMap (·.2)) =
        settle clash held x ::
          ledger clash (held ++ kept [settle clash held x]) (rest.filterMap (·.2)) := rfl
    rw [hledger, List.forall_mem_cons, List.forall_mem_cons, List.forall_mem_cons, ih]
    by_cases hkept : (settle clash held x).isKept = true <;> simp [hkept]

end Outcomes

-- ════════════════════════════════════════════════════════════════════════
-- Offers in batches
-- ════════════════════════════════════════════════════════════════════════

variable {β : Type}

/-- The offers of several batches. What a batch offers may depend on its position. -/
def batches (batch : β → Nat → List α) (bs : List β) : List α :=
  bs.zipIdx.flatMap fun (b, position) => batch b position

theorem batches_concat (batch : β → Nat → List α) (bs : List β) (b : β) :
    batches batch (bs ++ [b]) = batches batch bs ++ batch b bs.length := by
  simp [batches, List.zipIdx_append]

theorem mem_batches {batch : β → Nat → List α} {bs : List β} {x : α} :
    x ∈ batches batch bs ↔ ∃ i, ∃ h : i < bs.length, x ∈ batch bs[i] i := by
  simp only [batches, List.mem_flatMap, Prod.exists, List.mem_zipIdx_iff_getElem?,
    List.getElem?_eq_some_iff]
  constructor
  · rintro ⟨b, i, ⟨hi, hb⟩, hx⟩
    rw [← hb] at hx
    exact ⟨i, hi, hx⟩
  · rintro ⟨i, hi, hx⟩
    exact ⟨bs[i], i, ⟨hi, rfl⟩, hx⟩

theorem batches_filterMap {γ : Type} (batch : β → Nat → List α) (f : α → Option γ) (bs : List β) :
    (batches batch bs).filterMap f = batches (fun b i => (batch b i).filterMap f) bs := by
  simp only [batches, List.filterMap_flatMap]

theorem batches_of_map {γ : Type} (batch : β → Nat → List α) (f : γ → β) (cs : List γ) :
    batches batch (cs.map f) = batches (fun c i => batch (f c) i) cs := by
  simp [batches, List.zipIdx_map, List.flatMap_map]

/-- What does not depend on positions is read off batch by batch. -/
theorem map_batches {γ : Type} {batch : β → Nat → List α} {f : α → γ} {read : β → List γ}
    {bs : List β} (h : ∀ b ∈ bs, ∀ i, (batch b i).map f = read b) :
    (batches batch bs).map f = bs.flatMap read := by
  induction bs using List.reverseRecOn with
  | nil => rfl
  | append_singleton bs b ih =>
    rw [batches_concat, List.map_append, List.flatMap_append,
      ih fun b hb => h b (List.mem_append_left _ hb), h b (by simp), List.flatMap_singleton]

theorem ledger_batches_concat (batch : β → Nat → List α) (bs : List β) (b : β) :
    ledger clash [] (batches batch (bs ++ [b])) =
      ledger clash [] (batches batch bs) ++
        ledger clash (kept (ledger clash [] (batches batch bs))) (batch b bs.length) := by
  rw [batches_concat, ledger_append, List.nil_append]

theorem offer_mem_of_mem_ledger {held xs : List α} {row : Row α} (h : row ∈ ledger clash held xs) :
    row.offer ∈ xs := by
  rw [← ledger_offers clash held xs]
  exact List.mem_map_of_mem h

section Position

variable {batch : β → Nat → List α} {position : α → Nat}
  (hposition : ∀ b i, ∀ x ∈ batch b i, position x = i)
include hposition

theorem position_lt {bs : List β} {x : α} (h : x ∈ batches batch bs) : position x < bs.length := by
  obtain ⟨i, hi, hx⟩ := mem_batches.mp h
  rwa [hposition _ i x hx]

/-- A further batch leaves the rows of earlier batches as they are. -/
theorem filter_batches_of_lt (bs : List β) (b : β) {i : Nat} (hi : i < bs.length) :
    (ledger clash [] (batches batch (bs ++ [b]))).filter (fun row => position row.offer = i) =
      (ledger clash [] (batches batch bs)).filter fun row => position row.offer = i := by
  rw [ledger_batches_concat, List.filter_append, List.append_right_eq_self, List.filter_eq_nil_iff]
  intro row hrow
  have h := hposition _ _ _ (offer_mem_of_mem_ledger clash hrow)
  simp only [decide_eq_true_eq]
  omega

/-- The rows of the last batch are those that come after all others. -/
theorem filter_batches_last (bs : List β) (b : β) :
    (ledger clash [] (batches batch (bs ++ [b]))).filter
        (fun row => position row.offer = bs.length) =
      ledger clash (kept (ledger clash [] (batches batch bs))) (batch b bs.length) := by
  have hbefore : (ledger clash [] (batches batch bs)).filter
      (fun row => position row.offer = bs.length) = [] := by
    rw [List.filter_eq_nil_iff]
    intro row hrow
    have h := position_lt hposition (offer_mem_of_mem_ledger clash hrow)
    simp only [decide_eq_true_eq]
    omega
  rw [ledger_batches_concat, List.filter_append, hbefore, List.nil_append, List.filter_eq_self]
  intro row hrow
  exact decide_eq_true (hposition _ _ _ (offer_mem_of_mem_ledger clash hrow))

end Position

end CustomFunctions.FirstWins
