import CustomFunctions.Diff.Search

/-!
# What edit scripts lead to

The edit script from one list to another one leads from the first to the second: what is kept and removed
makes up the first list, and what is kept and added the second. The search keeps this up because it divides
both lists and nothing is lost, and settling the changes because each move of a change keeps both lists.

## Main definitions

- `Script.items` — the list that a script leads from or to
- `Script.Leads` — a script leads from one list to another one
- `script_leads` — the edit script from one list to another one does
-/

namespace CustomFunctions.Diff

variable {α : Type}

/-- One of the two lists of an edit script. -/
inductive Side where
  | source
  | target

/-- The items of a run that one of the lists has. -/
@[simp]
def Run.itemsOn : Side → Run α → List α
  | _, kept items => items
  | .source, removed items => items
  | .target, removed _ => []
  | .source, added _ => []
  | .target, added items => items

namespace Script

variable {s t : Script α} {old new old' new' : List α}

/-- The list that a script leads from, or the one that it leads to. -/
def items (side : Side) (script : Script α) : List α :=
  script.flatMap (Run.itemsOn side)

/-- The script leads from one list to the other. -/
structure Leads (script : Script α) (old new : List α) : Prop where
  source : script.items .source = old
  target : script.items .target = new

@[simp]
theorem items_nil (side : Side) : items side ([] : Script α) = [] :=
  rfl

@[simp]
theorem items_cons (side : Side) (run : Run α) :
    items side (run :: s) = run.itemsOn side ++ s.items side :=
  List.flatMap_cons

@[simp]
theorem items_append (side : Side) : items side (s ++ t) = s.items side ++ t.items side :=
  List.flatMap_append

/-- Two scripts with the same lists lead from the one to the other. -/
theorem Leads.congr (h : s.Leads old new) (heq : ∀ side, t.items side = s.items side) :
    t.Leads old new :=
  ⟨(heq .source).trans h.source, (heq .target).trans h.target⟩

theorem Leads.append (hs : s.Leads old new) (ht : t.Leads old' new') :
    Leads (s ++ t) (old ++ old') (new ++ new') := by
  constructor
  · rw [items_append, hs.source, ht.source]
  · rw [items_append, hs.target, ht.target]

theorem Leads.singleton (run : Run α) :
    Leads [run] (run.itemsOn .source) (run.itemsOn .target) :=
  ⟨List.append_nil _, List.append_nil _⟩

theorem Leads.unlessEmpty (run : Run α) :
    (unlessEmpty run).Leads (run.itemsOn .source) (run.itemsOn .target) := by
  rw [Diff.unlessEmpty]
  split
  · next hempty =>
    have hitems : run.items = [] := List.isEmpty_iff.mp hempty
    cases run <;> obtain rfl := hitems <;> exact ⟨rfl, rfl⟩
  · exact .singleton run

/-- Removing one list and adding another one leads from the one to the other. -/
theorem Leads.replace (hs : s.Leads old []) (ht : t.Leads [] new) : Leads (s ++ t) old new := by
  simpa using hs.append ht

end Script

-- ════════════════════════════════════════════════════════════════════════
-- What agrees at the ends of two lists
-- ════════════════════════════════════════════════════════════════════════

section

variable [DecidableEq α]

theorem take_commonPrefix (xs ys : List α) :
    xs.take (commonPrefix xs ys) = ys.take (commonPrefix xs ys) := by
  induction xs generalizing ys with
  | nil => simp [commonPrefix]
  | cons x xs ih =>
    cases ys with
    | nil => simp [commonPrefix]
    | cons y ys =>
      rw [commonPrefix]
      split
      · next heq => rw [List.take_succ_cons, List.take_succ_cons, heq, ih]
      · rfl

theorem drop_commonSuffix (xs ys : List α) :
    xs.drop (xs.length - commonSuffix xs ys) = ys.drop (ys.length - commonSuffix xs ys) := by
  have htake := take_commonPrefix xs.reverse ys.reverse
  rwa [List.take_reverse, List.take_reverse, List.reverse_inj] at htake

/-- Nothing is lost when two lists are trimmed. -/
theorem trim_old (old new : List α) :
    (trim old new).start ++ (trim old new).old ++ (trim old new).ending = old := by
  simp only [trim]
  rw [List.append_assoc, List.take_append_drop, List.take_append_drop]

theorem trim_new (old new : List α) :
    (trim old new).start ++ (trim old new).new ++ (trim old new).ending = new := by
  have hending := drop_commonSuffix (old.drop (commonPrefix old new)) (new.drop (commonPrefix old new))
  rw [List.length_drop, List.length_drop] at hending
  simp only [trim]
  rw [take_commonPrefix, hending, List.append_assoc, List.take_append_drop, List.take_append_drop]

/-- Nothing is lost when two lists are divided. -/
theorem append_of_halves {old new : List α} {first second : List α × List α}
    (h : halves? old new = some (first, second)) :
    first.1 ++ second.1 = old ∧ first.2 ++ second.2 = new := by
  obtain ⟨⟨x, y⟩, _, h⟩ := Option.bind_eq_some_iff.mp h
  dsimp only at h
  split at h
  · obtain ⟨rfl, rfl⟩ := Prod.mk.inj (Option.some.inj h)
    exact ⟨List.take_append_drop x old, List.take_append_drop y new⟩
  · cases h

/-- What the search finds leads from one list to the other. -/
theorem rawScript_leads (old new : List α) : (rawScript old new).Leads old new := by
  fun_induction rawScript old new with
  | case1 old new ihFirst ihSecond =>
    have hwhole : ∀ middle : Script α, middle.Leads (trim old new).old (trim old new).new →
        Script.Leads (unlessEmpty (.kept (trim old new).start) ++ middle
          ++ unlessEmpty (.kept (trim old new).ending)) old new := by
      intro middle hmiddle
      have happend := (Script.Leads.append (.unlessEmpty (.kept (trim old new).start)) hmiddle).append
        (.unlessEmpty (.kept (trim old new).ending))
      simp only [Run.itemsOn, trim_old, trim_new] at happend
      exact happend
    refine hwhole _ ?_
    split
    · exact .replace (.unlessEmpty (.removed _)) (.unlessEmpty (.added _))
    · split
      · next first second hhalves =>
        obtain ⟨hold, hnew⟩ := append_of_halves hhalves
        have happend := (ihFirst first second hhalves).append (ihSecond first second hhalves)
        rwa [hold, hnew] at happend
      · exact .replace (.singleton (.removed _)) (.singleton (.added _))

end

-- ════════════════════════════════════════════════════════════════════════
-- Settling
-- ════════════════════════════════════════════════════════════════════════

namespace Script

variable {before behind : Script α} {run : Run α} {old new : List α}

/-- The script around a run with the run. -/
def Place.script (place : Place α) : Script α :=
  place.1.reverse ++ place.2.1 :: place.2.2

@[simp]
theorem items_place (side : Side) : (Place.script (before, run, behind)).items side
    = items side before.reverse ++ (run.itemsOn side ++ behind.items side) := by
  simp [Place.script]

@[simp]
theorem items_keepFront (side : Side) (kept : List α) (s : Script α) :
    (s.keepFront kept).items side = kept ++ s.items side := by
  unfold keepFront
  split <;> simp

@[simp]
theorem items_keepBack (side : Side) (kept : List α) (s : Script α) :
    items side (s.keepBack kept).reverse = items side s.reverse ++ kept := by
  unfold keepBack
  split <;> simp

/-- Kept items are put in front of a script unless there are none. -/
@[simp]
theorem items_unlessNil (side : Side) (kept : List α) (s : Script α) :
    items side (if kept = [] then s else .kept kept :: s) = kept ++ s.items side := by
  split
  · next hnil => simp [hnil]
  · simp

/-- The same for a script that is given in reverse order. -/
@[simp]
theorem items_reverse_unlessNil (side : Side) (kept : List α) (s : Script α) :
    items side (if kept = [] then s else .kept kept :: s).reverse = items side s.reverse ++ kept := by
  split
  · next hnil => simp [hnil]
  · simp

variable [DecidableEq α]

/-- Moving a change to the front keeps both lists. -/
theorem moveUp_leads (fuel : Nat) (h : (Place.script (before, run, behind)).Leads old new) :
    (Place.script (moveUp fuel before run behind)).Leads old new := by
  fun_induction moveUp fuel before run behind with
  -- the run goes no further
  | case1 | case3 | case9 => exact h
  -- it drops an empty neighbour, changes places with a whole one or becomes one with it
  | case2 _ _ _ _ _ ih | case5 _ _ _ _ _ ih | case6 _ _ _ _ _ ih | case7 _ _ _ _ _ ih
  | case8 _ _ _ _ _ ih => exact ih (h.congr fun side => by cases side <;> simp)
  | case4 behind fuel items before added _ moved left before' ih =>
    -- the added items end with the kept ones that they change places with
    have hitems : left ++ moved = items := List.take_append_drop ..
    have hadded : added.take (added.length - commonSuffix items added) ++ moved = added := by
      rw [show moved = _ from drop_commonSuffix items added]
      exact List.take_append_drop ..
    refine ih (h.congr fun side => ?_)
    cases side with
    | source => simp [before', ← hitems]
    | target =>
      calc
        _ = Script.items .target before.reverse ++ (left ++ moved)
              ++ (added.take (added.length - commonSuffix items added) ++ moved)
              ++ behind.items .target := by simp [before']
        _ = _ := by simp [hitems, hadded]

/-- Moving a change to the end keeps both lists. -/
theorem moveDown_leads (fuel : Nat) (h : (Place.script (before, run, behind)).Leads old new) :
    (Place.script (moveDown fuel before run behind)).Leads old new := by
  fun_induction moveDown fuel before run behind with
  -- the run goes no further
  | case1 | case3 | case9 => exact h
  -- it drops an empty neighbour, changes places with a whole one or becomes one with it
  | case2 _ _ _ _ _ ih | case5 _ _ _ _ _ ih | case6 _ _ _ _ _ ih | case7 _ _ _ _ _ ih
  | case8 _ _ _ _ _ ih => exact ih (h.congr fun side => by cases side <;> simp)
  | case4 before fuel added items behind _ moved left behind' ih =>
    -- the added items begin with the kept ones that they change places with
    have hitems : moved ++ left = items := List.take_append_drop ..
    have hadded : moved ++ added.drop (commonPrefix items added) = added := by
      rw [show moved = _ from take_commonPrefix items added]
      exact List.take_append_drop ..
    refine ih (h.congr fun side => ?_)
    cases side with
    | source => simp [behind', ← hitems]
    | target =>
      calc
        _ = Script.items .target before.reverse
              ++ (moved ++ added.drop (commonPrefix items added)) ++ (moved ++ left)
              ++ Script.items .target behind := by simp [behind']
        _ = _ := by simp [hitems, hadded]

theorem settleRuns_leads (selects : Run α → Bool) (bound fuel : Nat) {s : Script α}
    (h : Leads (before.reverse ++ s) old new) :
    (settleRuns selects bound fuel before s).Leads old new := by
  fun_induction settleRuns selects bound fuel before s with
  | case1 => exact h
  | case2 => rwa [List.append_nil] at h
  | case3 fuel before run rest _ before₁ run₁ rest₁ hup before₂ run₂ rest₂ hdown ih =>
    have hmoved : (Place.script (before₁, run₁, rest₁)).Leads old new := hup ▸ moveUp_leads bound h
    have hsettled : (Place.script (before₂, run₂, rest₂)).Leads old new :=
      hdown ▸ moveDown_leads bound hmoved
    refine ih ?_
    rwa [List.reverse_cons, List.append_assoc, List.singleton_append]
  | case4 fuel before run rest _ ih =>
    refine ih ?_
    rwa [List.reverse_cons, List.append_assoc, List.singleton_append]

/-- Settling the changes keeps both lists. -/
theorem Leads.settle {s : Script α} (h : s.Leads old new) : s.settle.Leads old new :=
  settleRuns_leads _ _ _ (settleRuns_leads _ _ _ h)

end Script

/-- The edit script from one list to another one leads from the first to the second. -/
theorem script_leads [DecidableEq α] (old new : List α) : (script old new).Leads old new :=
  (rawScript_leads old new).settle

end CustomFunctions.Diff
