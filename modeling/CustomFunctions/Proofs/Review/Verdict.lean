import CustomFunctions.Proofs.FirstWins
import CustomFunctions.Proofs.Review.Rules
import CustomFunctions.Review.Basic
import Mathlib.Data.List.Forall2

/-!
# Verdicts of a run of reviews

A run of reviews accepts a candidate exactly if the candidate is clean and clashes with no candidate
accepted before it. So the accepted candidates are what is kept of the clean ones when the first of
several clashing ones wins, and a rejected candidate claims nothing.

## Main definitions

- `Candidate.IsClean` — no error of its own, and all rules kept
- `Review.accepted` — the signatures that reviews have accepted
-/

namespace CustomFunctions

open FirstWins

/-- The candidate can be accepted if nothing accepted before it clashes with it. -/
structure Candidate.IsClean (c : Candidate) : Prop where
  no_errors : ∀ d ∈ c.diagnostics, d.severity ≠ .error
  rules : c.signature.KeepsRules

/-- The two functions cannot both be accepted. -/
def Signature.Clashes (f g : Signature) : Prop :=
  f.claim.Clashes g.claim

instance : DecidableRel Signature.Clashes := fun f g =>
  inferInstanceAs (Decidable (f.claim.Clashes g.claim))

/-- The table of the claims of accepted functions. -/
def DuplicateTable.ofAccepted (fs : List Signature) : DuplicateTable :=
  ⟨fs.map Signature.claim⟩

namespace Review

/-- The accepted signatures, in order. -/
def accepted (rs : List Review) : List Signature :=
  (rs.filter isAccepted).map (·.signature)

@[simp] theorem accepted_nil : accepted [] = [] := rfl

@[simp] theorem accepted_append (rs rs' : List Review) :
    accepted (rs ++ rs') = accepted rs ++ accepted rs' := by
  simp [accepted]

theorem accepted_cons (r : Review) (rs : List Review) :
    accepted (r :: rs) = accepted [r] ++ accepted rs :=
  accepted_append [r] rs

theorem accepted_single (r : Review) :
    accepted [r] = if r.isAccepted then [r.signature] else [] := by
  cases h : r.isAccepted <;> simp [accepted, h]

theorem mem_accepted {rs : List Review} {f : Signature} :
    f ∈ accepted rs ↔ ∃ r ∈ rs, r.isAccepted = true ∧ r.signature = f := by
  simp [accepted, and_assoc]

theorem isAccepted_iff_no_errors (table : DuplicateTable) (c : Candidate) :
    (ofCandidate table c).isAccepted = true ↔
      ∀ d ∈ (ofCandidate table c).diagnostics, d.isError = false := by
  cases hany : (ofCandidate table c).diagnostics.any Diagnostic.isError with
  | true =>
    have hverdict : (ofCandidate table c).verdict = .rejected := if_pos hany
    obtain ⟨d, hd, herror⟩ := List.any_eq_true.mp hany
    refine iff_of_false (by simp [isAccepted, hverdict]) fun hall => ?_
    rw [hall d hd] at herror
    exact nomatch herror
  | false =>
    have hverdict : (ofCandidate table c).verdict = .accepted := if_neg (Bool.eq_false_iff.mp hany)
    refine iff_of_true (by simp [isAccepted, hverdict]) fun d hd => ?_
    exact Bool.eq_false_iff.mpr (List.any_eq_false.mp hany d hd)

theorem ofCandidate_isAccepted (table : DuplicateTable) (c : Candidate) :
    (ofCandidate table c).isAccepted = true ↔
      c.IsClean ∧ ∀ k ∈ table.claims, ¬ k.Clashes c.signature.claim := by
  rw [isAccepted_iff_no_errors, ofCandidate, List.forall_mem_append]
  constructor
  · rintro ⟨hown, hnew⟩
    -- every violation is reported as an error
    have hnone : c.signature.violations table = [] := by
      rw [List.eq_nil_iff_forall_not_mem]
      intro v hv
      exact nomatch hnew _ (List.mem_map_of_mem hv)
    obtain ⟨hrules, hfresh⟩ := (c.signature.violations_eq_nil table).mp hnone
    exact ⟨⟨fun d hd => of_decide_eq_false (hown d hd), hrules⟩, hfresh⟩
  · rintro ⟨hclean, hfresh⟩
    refine ⟨fun d hd => decide_eq_false (hclean.no_errors d hd), ?_⟩
    rw [(c.signature.violations_eq_nil table).mpr ⟨hclean.rules, hfresh⟩]
    exact List.forall_mem_nil _

/-- One review adds the claim of an accepted signature and nothing else. -/
theorem claims_ofAccepted (held : List Signature) (r : Review) :
    r.claims (.ofAccepted held) = .ofAccepted (held ++ accepted [r]) := by
  rw [claims, accepted_single]
  split <;> simp [DuplicateTable.record, DuplicateTable.ofAccepted, claim, Signature.claim]

theorem all_append (held : List Signature) (cs ds : List Candidate) :
    all (.ofAccepted held) (cs ++ ds) =
      all (.ofAccepted held) cs ++
        all (.ofAccepted (held ++ accepted (all (.ofAccepted held) cs))) ds := by
  induction cs generalizing held with
  | nil => simp [all]
  | cons c cs ih =>
    simp only [List.cons_append, all, claims_ofAccepted]
    rw [ih, accepted_cons _ (all _ cs), List.append_assoc]

@[simp] theorem all_signatures (table : DuplicateTable) (cs : List Candidate) :
    (all table cs).map (·.signature) = cs.map (·.signature) := by
  induction cs generalizing table with
  | nil => rfl
  | cons c cs ih =>
    rw [all, List.map_cons, List.map_cons, ih]
    rfl

@[simp] theorem all_length (table : DuplicateTable) (cs : List Candidate) :
    (all table cs).length = cs.length := by
  have h := congrArg List.length (all_signatures table cs)
  rwa [List.length_map, List.length_map] at h

/-- Every candidate of a run has its own review. -/
theorem all_forall₂ (table : DuplicateTable) (cs : List Candidate) :
    List.Forall₂ (fun c r => ∃ table, r = ofCandidate table c) cs (all table cs) := by
  induction cs generalizing table with
  | nil => exact .nil
  | cons c cs ih => exact .cons ⟨table, rfl⟩ (ih _)

/-- The review of a candidate in a run sees exactly what has been accepted before it. -/
theorem all_split (before : List Candidate) (c : Candidate) (after : List Candidate) :
    ∃ rest, all .empty (before ++ c :: after) =
      all .empty before ++
        ofCandidate (.ofAccepted (accepted (all .empty before))) c :: rest :=
  ⟨_, all_append [] before (c :: after)⟩

/-- In a run of reviews, the candidate at a position is accepted exactly if it is clean and neither
its id, in any letter case, nor its name has been accepted before. -/
theorem isAccepted_iff_clean_and_fresh (cs : List Candidate) (i : Fin cs.length) :
    let rs := all .empty cs
    let r := rs.get ⟨i, by rw [all_length]; exact i.isLt⟩
    r.signature = cs[i].signature ∧
      (r.isAccepted = true ↔
        cs[i].IsClean ∧
          ∀ f ∈ accepted (rs.take i),
            Text.lowerCase f.id ≠ Text.lowerCase cs[i].signature.id ∧
              f.name ≠ cs[i].signature.name) := by
  intro rs r
  have hcs : cs = cs.take i ++ cs[i] :: cs.drop (i + 1) := by
    simp
  obtain ⟨rest, hrs⟩ := all_split (cs.take i) cs[i] (cs.drop (i + 1))
  rw [← hcs] at hrs
  have hlen : (all .empty (cs.take i)).length = i := by
    simp
  have htake : rs.take i = all .empty (cs.take i) := by
    change (all .empty cs).take i = _
    rw [hrs, List.take_left' hlen]
  have hr : r = ofCandidate (.ofAccepted (accepted (all .empty (cs.take i)))) cs[i] := by
    simp [r, rs, hrs, hlen]
  rw [hr, htake, ofCandidate_isAccepted]
  refine ⟨rfl, and_congr_right fun _ => ?_⟩
  simp [DuplicateTable.ofAccepted, Claim.Clashes, Claim.SameId, Claim.SameName, Signature.claim]

/-- Clean candidates are told apart by their errors and by their violations alone. -/
instance (c : Candidate) : Decidable c.IsClean :=
  decidable_of_iff ((ofCandidate .empty c).isAccepted = true) (by
    rw [ofCandidate_isAccepted]
    simp [DuplicateTable.empty])

/-- Reviews keep the first ones of the clean candidates. -/
theorem accepted_all (held : List Signature) (cs : List Candidate) :
    accepted (all (.ofAccepted held) cs) =
      kept (ledger Signature.Clashes held
        ((cs.filter fun c => c.IsClean).map (·.signature))) := by
  induction cs generalizing held with
  | nil => rfl
  | cons c cs ih =>
    have hfresh : (ofCandidate (.ofAccepted held) c).isAccepted = true ↔
        c.IsClean ∧ (settle Signature.Clashes held c.signature).isKept = true := by
      rw [ofCandidate_isAccepted, settle_isKept]
      simp [DuplicateTable.ofAccepted, Signature.Clashes]
    rw [all, accepted_cons, claims_ofAccepted, ih, accepted_single]
    by_cases hclean : c.IsClean
    · rw [List.filter_cons_of_pos (by simpa using hclean), List.map_cons, ledger, kept_cons,
        kept_single]
      by_cases hkept : (settle Signature.Clashes held c.signature).isKept = true
      · rw [if_pos (hfresh.mpr ⟨hclean, hkept⟩), if_pos hkept]
        rfl
      · rw [if_neg (fun h => hkept (hfresh.mp h).2), if_neg hkept]
    · rw [List.filter_cons_of_neg (by simpa using hclean),
        if_neg (fun h => hclean (hfresh.mp h).1), List.append_nil, List.nil_append]

/-- An accepted signature is that of a clean candidate. -/
theorem exists_clean_of_accepted {cs : List Candidate} {f : Signature}
    (h : f ∈ accepted (all .empty cs)) : ∃ c ∈ cs, c.IsClean ∧ c.signature = f := by
  have haccepted := accepted_all [] cs
  rw [show DuplicateTable.empty = .ofAccepted [] from rfl, haccepted] at h
  obtain ⟨c, hc, rfl⟩ := List.mem_map.mp (mem_of_mem_kept _ h)
  obtain ⟨hmem, hclean⟩ := List.mem_filter.mp hc
  exact ⟨c, hmem, of_decide_eq_true hclean, rfl⟩

/-- Accepted functions do not clash with each other. -/
theorem accepted_pairwise (cs : List Candidate) :
    (accepted (all .empty cs)).Pairwise fun f g => ¬ f.Clashes g := by
  have h := kept_pairwise Signature.Clashes [] List.Pairwise.nil
    ((cs.filter fun c => c.IsClean).map (·.signature))
  rw [← accepted_all] at h
  exact h

/-- A clean candidate shares a key with an accepted function, be it itself. -/
theorem exists_accepted_clash {cs : List Candidate} {c : Candidate} (hc : c ∈ cs)
    (hclean : c.IsClean) : ∃ f ∈ accepted (all .empty cs), f.Clashes c.signature := by
  have hmem : c.signature ∈ (cs.filter fun c => c.IsClean).map (·.signature) :=
    List.mem_map_of_mem (List.mem_filter.mpr ⟨hc, by simpa using hclean⟩)
  have haccepted := accepted_all [] cs
  by_cases hkept : c.signature ∈ accepted (all .empty cs)
  · exact ⟨c.signature, hkept, Claim.Clashes.refl _⟩
  · have h := exists_kept_clash Signature.Clashes [] hmem
      (by rw [← haccepted]; exact hkept)
    rw [← haccepted] at h
    exact h

end Review

end CustomFunctions
