import CustomFunctions.Script.Terminal

/-!
# What rules read

How a rule that is put together of other ones runs where these are known to apply or not, and what can
be said of all that it reads, wherever it is applied.

## Main definitions

- `Rule.Refuses` — a rule does not apply where a text stands
- `Rule.Yields` — whatever a rule reads has a property
- `Rule.Yields.bind`, `Rule.Yields.orElse`, `Rule.Yields.many` — rules put together of other rules
-/

namespace CustomFunctions.Script.Rule

variable {α β : Type} {p q : Rule α} {f : α → Rule β} {st next : State} {a : α}

-- ════════════════════════════════════════════════════════════════════════
-- Runs
-- ════════════════════════════════════════════════════════════════════════

theorem run_bind (h : p.run st = (some a, next)) : (p >>= f).run st = (f a).run next := by
  change (andThen p f).run st = _
  rw [andThen]
  dsimp only
  rw [h]

theorem run_bind_none (h : p.run st = (none, next)) : (p >>= f).run st = (none, next) := by
  change (andThen p f).run st = _
  rw [andThen]
  dsimp only
  rw [h]

theorem run_orElse (h : p.run st = (some a, next)) : (orElse p q).run st = (some a, next) := by
  rw [orElse]
  dsimp only
  rw [h]

theorem run_orElse_none (h : p.run st = (none, next)) :
    (orElse p q).run st = q.run (st.keepRefusals next) := by
  rw [orElse]
  dsimp only
  rw [h]

theorem run_oneOf_head {rules : List (Rule α)} (h : p.run st = (some a, next)) :
    (oneOf (p :: rules)).run st = (some a, next) := by
  cases rules with
  | nil => exact h
  | cons q rules => exact run_orElse h

theorem run_oneOf_tail {rules : List (Rule α)} (h : p.run st = (none, next)) :
    (oneOf (p :: q :: rules)).run st = (oneOf (q :: rules)).run (st.keepRefusals next) :=
  run_orElse_none h

theorem run_lexeme {scan : List Char → Nat} {n : Nat} (h : scan st.rest = n + 1) :
    (lexeme scan).run st = (some (st.rest.take (n + 1)), st.advance (n + 1)) := by
  rw [lexeme]
  dsimp only
  rw [h]
  rfl

theorem run_lexeme_none {scan : List Char → Nat} (h : scan st.rest = 0) :
    (lexeme scan).run st = (none, st.refuse) := by
  rw [lexeme]
  dsimp only
  rw [h]
  rfl

theorem run_spanned (h : p.run st = (some a, next)) :
    (spanned p).run st =
      (some (a, st.rest.take (next.end_ - st.position), st.line), next) := by
  rw [spanned]
  dsimp only
  rw [h]

-- ════════════════════════════════════════════════════════════════════════
-- Texts to which a rule does not apply
-- ════════════════════════════════════════════════════════════════════════

/-- The rule does not apply where the text stands, whatever stands before it. -/
def Refuses (p : Rule α) (text : List Char) : Prop :=
  ∀ st, st.rest = text → (p.run st).1 = none

variable {text : List Char}

theorem Refuses.bind (h : p.Refuses text) (f : α → Rule β) : (p >>= f).Refuses text := by
  intro st hst
  rw [run_bind_none (Prod.ext (h st hst) rfl)]

theorem Refuses.spanned (h : p.Refuses text) : (spanned p).Refuses text := by
  intro st hst
  have hnone : p.run st = (none, (p.run st).2) := Prod.ext (h st hst) rfl
  rw [Rule.spanned]
  dsimp only
  rw [hnone]

theorem Refuses.oneOf {rules : List (Rule α)} (h : ∀ p ∈ rules, p.Refuses text) :
    (oneOf rules).Refuses text := by
  induction rules with
  | nil => exact fun _ _ => rfl
  | cons p rules ih =>
    obtain ⟨hp, hrules⟩ := List.forall_mem_cons.mp h
    cases rules with
    | nil => exact hp
    | cons q rules =>
      intro st hst
      rw [run_oneOf_tail (Prod.ext (hp st hst) rfl)]
      exact ih hrules _ hst

theorem Refuses.lexeme {scan : List Char → Nat} (h : scan text = 0) :
    (lexeme scan).Refuses text := by
  rintro st rfl
  rw [run_lexeme_none h]

theorem Refuses.word {w : String} (h : text.take (Lexeme.word text) ≠ w.toList) :
    (word w).Refuses text := by
  rintro st rfl
  rw [Rule.word]
  dsimp only
  rw [if_neg (by rwa [State.atWord, decide_eq_true_eq])]

theorem Refuses.mark {m : String} (h : Lexeme.mark text ≠ m.toList) (hm : m.toList ≠ []) :
    (mark m).Refuses text := by
  rintro st rfl
  have hmark : st.mark ≠ m.toList := by
    rw [State.mark]
    split
    · exact h
    · exact hm.symm
  rw [Rule.mark]
  dsimp only
  rw [if_neg (by rwa [State.atMark, decide_eq_true_eq])]

theorem Refuses.bare {m : String} (h : m.toList.isPrefixOf text = false) :
    (bare m).Refuses text := by
  rintro st rfl
  rw [Rule.bare]
  dsimp only
  rw [if_neg (by simp [h])]

-- ════════════════════════════════════════════════════════════════════════
-- Properties of all that is read
-- ════════════════════════════════════════════════════════════════════════

/-- Whatever the rule reads has the property. -/
def Yields (p : Rule α) (P : α → Prop) : Prop :=
  ∀ st a next, p.run st = (some a, next) → P a

variable {P : α → Prop} {Q : β → Prop}

theorem Yields.pure (h : P a) : (Pure.pure a : Rule α).Yields P := by
  rintro st _ next ⟨⟩
  exact h

theorem Yields.never : (never : Rule α).Yields P := by
  rintro st b next ⟨⟩

theorem Yields.mono {P' : α → Prop} (h : p.Yields P) (himp : ∀ a, P a → P' a) : p.Yields P' :=
  fun st a next hrun => himp a (h st a next hrun)

/-- One phrase and then another that depends on it. -/
theorem Yields.bind (hp : p.Yields P) (hf : ∀ a, P a → (f a).Yields Q) : (p >>= f).Yields Q := by
  intro st b next hrun
  cases hfirst : p.run st with
  | mk read mid =>
    cases read with
    | none =>
      rw [run_bind_none hfirst] at hrun
      cases hrun
    | some a =>
      rw [run_bind hfirst] at hrun
      exact hf a (hp st a mid hfirst) mid b next hrun

/-- One phrase, whatever is read, and then another. -/
theorem Yields.after (hf : ∀ a, (f a).Yields Q) : (p >>= f).Yields Q :=
  Yields.bind (P := fun _ => True) (fun _ _ _ _ => trivial) fun a _ => hf a

theorem Yields.orElse (hp : p.Yields P) (hq : q.Yields P) : (orElse p q).Yields P := by
  intro st b next hrun
  cases hfirst : p.run st with
  | mk read mid =>
    cases read with
    | none =>
      rw [run_orElse_none hfirst] at hrun
      exact hq _ b next hrun
    | some a =>
      rw [run_orElse hfirst] at hrun
      exact hp st b next (hfirst.trans hrun)

theorem Yields.oneOf_cons {rules : List (Rule α)} (hp : p.Yields P)
    (hrules : (oneOf rules).Yields P) : (oneOf (p :: rules)).Yields P := by
  cases rules with
  | nil => exact hp
  | cons q rules => exact hp.orElse hrules

theorem Yields.ite {c : Prop} [Decidable c] (hp : p.Yields P) (hq : q.Yields P) :
    (if c then p else q).Yields P := by
  split
  · exact hp
  · exact hq

theorem Yields.choose (condition : State → Bool) (hp : p.Yields P) (hq : q.Yields P) :
    (choose condition p q).Yields P := by
  intro st b next hrun
  rw [Rule.choose] at hrun
  dsimp only at hrun
  split at hrun
  · exact hp st b next hrun
  · exact hq st b next hrun

theorem Yields.optional (hp : p.Yields P) : (optional p).Yields fun read => ∀ a ∈ read, P a := by
  refine .orElse (hp.bind fun a ha => .pure ?_) (.pure nofun)
  rintro _ ⟨⟩
  exact ha

theorem Yields.atMost (hp : p.Yields P) (n : Nat) :
    (atMost p n).Yields fun read => ∀ a ∈ read, P a := by
  induction n with
  | zero => exact .pure nofun
  | succ n ih =>
    intro st read next hrun
    rw [Rule.atMost] at hrun
    dsimp only at hrun
    split at hrun
    · next a mid hfirst =>
      have ha := hp st a mid hfirst
      split at hrun
      · cases hrun
        simpa using ha
      · split at hrun
        · next more last hmore =>
          cases hrun
          exact List.forall_mem_cons.mpr ⟨ha, ih mid more next hmore⟩
        · cases hrun
          simpa using ha
    · cases hrun
      exact nofun

theorem Yields.many (hp : p.Yields P) : (many p).Yields fun read => ∀ a ∈ read, P a := by
  intro st read next hrun
  exact hp.atMost (st.rest.length + 1) st read next hrun

theorem Yields.list (hp : p.Yields P) (separator : Rule Unit) :
    (list p separator).Yields fun read => ∀ a ∈ read, P a := by
  refine hp.bind fun first hfirst => ?_
  refine .bind (.many (.after fun _ => hp)) fun more hmore => .pure ?_
  exact List.forall_mem_cons.mpr ⟨hfirst, hmore⟩

theorem Yields.commaList (hp : p.Yields P) : (commaList p).Yields fun read => ∀ a ∈ read, P a :=
  hp.list _

theorem Yields.sparseList (hp : p.Yields P) :
    (sparseList p).Yields fun read => ∀ a ∈ read, P a := by
  refine .bind (.commaList hp.optional) fun read hread => .pure fun a ha => ?_
  obtain ⟨_, hmem, rfl⟩ := List.mem_filterMap.mp ha
  exact hread _ hmem a rfl

theorem Yields.spanned (hp : p.Yields P) : (spanned p).Yields fun read => P read.1 := by
  intro st b next hrun
  cases hfirst : p.run st with
  | mk read mid =>
    cases read with
    | some a =>
      rw [run_spanned hfirst] at hrun
      cases hrun
      exact hp st a next hfirst
    | none =>
      rw [Rule.spanned] at hrun
      dsimp only at hrun
      rw [hfirst] at hrun
      cases hrun

end CustomFunctions.Script.Rule
