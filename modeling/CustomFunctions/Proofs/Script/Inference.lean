import CustomFunctions.Proofs.Script.Statements
import CustomFunctions.Script.Declarations
import CustomFunctions.ValueType.Resolve

/-!
# What the return hints of a function depend on

The return hints of a function are those of the return statements of its body outside of nested
functions, methods and classes that are not abstract. A return statement in a block of an abstract
class counts as one of the function, so the hints are those of the function's own return statements
unless there is such a statement. What stands inside of nested functions and classes changes neither
the hints nor the type inferred from them, which depends only on what hints there are.

## Main results

- `ValueType.ofHints_congr` — the inferred type depends only on which hints occur
- `FunctionStatement.exists_isDeclared_of_mem_functions` — the functions of a source text are declared
- `FunctionStatement.IsDeclared.returnHints_own_iff` — which return statements the hints tell of
-/

namespace CustomFunctions

-- ════════════════════════════════════════════════════════════════════════
-- The inferred type
-- ════════════════════════════════════════════════════════════════════════

namespace ValueType

/-- The first of several hints differs from another one iff any two of them differ. -/
theorem any_ne_first_iff {first : ReturnHint} {rest : List ReturnHint} :
    rest.any (· ≠ first) = true ↔ ∃ a ∈ first :: rest, ∃ b ∈ first :: rest, a ≠ b := by
  simp only [List.any_eq_true, decide_eq_true_eq]
  constructor
  · rintro ⟨a, ha, hne⟩
    exact ⟨a, List.mem_cons_of_mem _ ha, first, List.mem_cons_self, hne⟩
  · rintro ⟨a, ha, b, hb, hne⟩
    by_cases hfirst : a = first
    · subst hfirst
      exact ⟨b, List.mem_of_ne_of_mem hne.symm hb, hne.symm⟩
    · exact ⟨a, List.mem_of_ne_of_mem hfirst ha, hfirst⟩

/-- The inferred type depends only on which hints of values there are. -/
theorem ofHints_congr {hints others : List ReturnHint}
    (h : ∀ hint, hint ≠ .empty → (hint ∈ hints ↔ hint ∈ others)) :
    ofHints hints = ofHints others := by
  have hmem : ∀ hint, hint ∈ hints.filter (· ≠ .empty) ↔ hint ∈ others.filter (· ≠ .empty) := by
    intro hint
    simp only [List.mem_filter, decide_eq_true_eq]
    exact and_congr_left (h hint)
  unfold ofHints
  generalize hints.filter (· ≠ .empty) = values at hmem
  generalize others.filter (· ≠ .empty) = otherValues at hmem
  match values, otherValues with
  | [], [] => rfl
  | [], other :: _ => exact absurd ((hmem other).mpr List.mem_cons_self) List.not_mem_nil
  | first :: _, [] => exact absurd ((hmem first).mp List.mem_cons_self) List.not_mem_nil
  | first :: rest, other :: otherRest =>
    have hany : rest.any (· ≠ first) = otherRest.any (· ≠ other) := by
      rw [Bool.eq_iff_iff, any_ne_first_iff, any_ne_first_iff]
      simp only [hmem]
    have hsame (hall : ¬ otherRest.any (· ≠ other) = true) : first = other := by
      by_contra hne
      refine hall (any_ne_first_iff.mpr ⟨first, ?_, other, List.mem_cons_self, hne⟩)
      exact (hmem first).mp List.mem_cons_self
    dsimp only
    rw [hany]
    split
    · rfl
    · next hall => rw [hsame hall]

end ValueType

namespace Script

namespace Tree

variable {nested others : List Enclosure} {t u : Tree}

/-- Every return statement inside an abstract class stands in a function, a method or another class
as well. -/
def SealsAbstractClasses (t : Tree) : Prop :=
  ∀ r ∈ t.returns, .abstractClass ∈ r.around → .scope ∈ r.around

instance : DecidablePred SealsAbstractClasses :=
  fun t => inferInstanceAs
    (Decidable (∀ r ∈ t.returns, .abstractClass ∈ r.around → .scope ∈ r.around))

/-- Fewer return statements stand outside of more kinds of enclosures; none of them is lost iff none
stands inside of one that is new. -/
theorem hintsOutside_eq_iff (h : nested ⊆ others) :
    t.hintsOutside nested = t.hintsOutside others ↔
      ∀ r ∈ t.returns, r.IsOutside nested → r.IsOutside others := by
  have houtside : ∀ r : Return, r.IsOutside others → r.IsOutside nested :=
    fun r hr e he hmem => hr e he (h hmem)
  -- the return statements outside of more enclosures are some of those outside of fewer
  have hfilter : t.returns.filter (·.IsOutside others) =
      (t.returns.filter (·.IsOutside nested)).filter (·.IsOutside others) := by
    rw [List.filter_filter]
    refine List.filter_congr fun r _ => ?_
    by_cases hr : r.IsOutside others <;> simp [hr, houtside]
  constructor
  · intro heq r hr hout
    -- equal lists of shapes may come from different statements, but not from fewer of them
    have hlength := congrArg List.length heq
    rw [hintsOutside, hintsOutside, List.length_map, List.length_map, hfilter] at hlength
    have hall := List.length_filter_eq_length_iff.mp hlength.symm
    exact of_decide_eq_true (hall r (List.mem_filter.mpr ⟨hr, decide_eq_true hout⟩))
  · intro hall
    rw [hintsOutside, hintsOutside]
    congr 1
    refine List.filter_congr fun r hr => ?_
    simp only [decide_eq_decide]
    exact ⟨hall r hr, houtside r⟩

theorem hintsOutside_abstractClass_eq_iff :
    t.hintsOutside [.scope] = t.hintsOutside [.scope, .abstractClass] ↔ t.SealsAbstractClasses := by
  rw [hintsOutside_eq_iff (by simp)]
  refine forall₂_congr fun r _ => ?_
  simp only [Return.IsOutside, List.mem_cons, List.not_mem_nil, or_false]
  constructor
  · intro hout habstract
    by_contra hscope
    have hnone : ∀ e ∈ r.around, ¬ e = .scope := fun e he heq => hscope (heq ▸ he)
    exact hout hnone .abstractClass habstract (.inr rfl)
  · rintro hseals hnone e he (rfl | rfl)
    · exact hnone .scope he rfl
    · exact hnone .scope (hseals he) rfl

/-- What stands inside of enclosures does not tell in the hints outside of them. -/
theorem hintsOutside_congr (h : t.emptied nested = u.emptied nested) :
    t.hintsOutside nested = u.hintsOutside nested := by
  rw [← hintsOutside_emptied t, h, hintsOutside_emptied]

end Tree

-- ════════════════════════════════════════════════════════════════════════
-- The return hints of a declared function
-- ════════════════════════════════════════════════════════════════════════

namespace FunctionStatement

/-- Some script declares the function at its top level. -/
def IsDeclared (f : FunctionStatement) : Prop :=
  ∃ dialect text list doc, statements? dialect text = .ok list ∧ (doc, .function f) ∈ list

/-- The shapes of what the return statements deliver that stand in no other function and in no
class. -/
def ownHints (f : FunctionStatement) : List ReturnHint :=
  f.body.hintsOutside [.scope, .abstractClass]

variable {f : FunctionStatement} {doc : Option DocComment}

/-- The functions of a source text are those that are declared in it. -/
theorem exists_isDeclared_of_mem_functions {path text : String} {language : Language}
    {unit : SourceUnit} (h : SourceUnit.ofText path language text = .ok unit) {decl : FunctionDecl}
    (hdecl : decl ∈ unit.functions) :
    ∃ (f : FunctionStatement) (doc : Option DocComment), f.IsDeclared ∧ f.declaration doc = decl := by
  rw [SourceUnit.ofText] at h
  split at h
  · next list hread =>
    cases h
    obtain ⟨⟨doc, statement⟩, hmem, hfunction⟩ := List.mem_filterMap.mp hdecl
    cases statement with
    | function f =>
      exact ⟨f, doc.map Comment.doc, ⟨language, _, list, doc, hread, hmem⟩,
        Option.some.inj hfunction⟩
    | enumeration e => cases hfunction
    | other tree => cases hfunction
  · cases h

theorem IsDeclared.returnHints_eq (h : f.IsDeclared) :
    (f.declaration doc).returnHints = f.body.hintsOutside [.scope] := by
  obtain ⟨dialect, text, list, doc?, hread, hmem⟩ := h
  exact tellsReturns_of_mem_statements hread hmem

theorem IsDeclared.returnHints_eq_ownHints (h : f.IsDeclared)
    (hseals : f.body.SealsAbstractClasses) : (f.declaration doc).returnHints = f.ownHints :=
  h.returnHints_eq.trans (Tree.hintsOutside_abstractClass_eq_iff.mpr hseals)

/-- The hints of a declared function tell, in order, of the return statements of its body outside of
functions, methods and classes that are not abstract. They tell of its own return statements iff none
stands in an abstract class and in no function, method or other class. Other contents of functions,
methods and such classes change neither the hints nor the inferred type, and with no such return
statement neither do other contents of abstract classes. The inferred type depends only on which hints
other than the empty one there are. -/
theorem IsDeclared.returnHints_own_iff (h : f.IsDeclared) (doc : Option DocComment) :
    (f.declaration doc).returnHints = f.body.hintsOutside [.scope]
      ∧ ((f.declaration doc).returnHints = f.ownHints ↔ f.body.SealsAbstractClasses)
      ∧ (∀ other : FunctionStatement, other.IsDeclared →
        (f.body.emptied [.scope] = other.body.emptied [.scope]
          ∨ f.body.SealsAbstractClasses ∧ other.body.SealsAbstractClasses
            ∧ f.body.emptied [.scope, .abstractClass] = other.body.emptied [.scope, .abstractClass]) →
        (f.declaration doc).returnHints = (other.declaration doc).returnHints
          ∧ ValueType.ofHints (f.declaration doc).returnHints
            = ValueType.ofHints (other.declaration doc).returnHints)
      ∧ ∀ hints : List ReturnHint,
        (∀ hint, hint ≠ .empty → (hint ∈ hints ↔ hint ∈ (f.declaration doc).returnHints)) →
          ValueType.ofHints hints = ValueType.ofHints (f.declaration doc).returnHints := by
  have hhints : (f.declaration doc).returnHints = f.body.hintsOutside [.scope] := h.returnHints_eq
  refine ⟨hhints, ?_, fun other hother hsame => ?_, fun _ => ValueType.ofHints_congr⟩
  · rw [hhints]
    exact Tree.hintsOutside_abstractClass_eq_iff
  · have heq : (f.declaration doc).returnHints = (other.declaration doc).returnHints := by
      rcases hsame with hsame | ⟨hseals, hotherSeals, hsame⟩
      · rw [hhints, hother.returnHints_eq]
        exact Tree.hintsOutside_congr hsame
      · rw [h.returnHints_eq_ownHints hseals, hother.returnHints_eq_ownHints hotherSeals]
        exact Tree.hintsOutside_congr hsame
    exact ⟨heq, congrArg ValueType.ofHints heq⟩

/-- The function that a script declares by its only statement. -/
def only? (dialect : Language) (text : String) : Option FunctionStatement :=
  match statements? dialect text.toList with
  | .ok [(_, .function f)] => some f
  | _ => none

theorem isDeclared_of_only? {dialect : Language} {text : String}
    (h : only? dialect text = some f) : f.IsDeclared := by
  rw [only?] at h
  split at h
  · next doc f' hread =>
    cases h
    exact ⟨dialect, text.toList, _, doc, hread, List.mem_singleton_self _⟩
  · cases h

/-- A function with a return statement in an arrow function and one of its own. -/
theorem returnHints_own_iff_number :
    ∃ f : FunctionStatement, f.IsDeclared ∧ f.body.returns.length = 2
      ∧ (f.declaration none).returnHints = f.ownHints ∧ f.ownHints = [.number]
      ∧ ValueType.ofHints (f.declaration none).returnHints = .number := by
  have hread : (only? .typeScript
      "function f()\x7b()=>\x7breturn true\x7d;return 1\x7d").any (fun f =>
        f.body.returns.length = 2 ∧ f.body.SealsAbstractClasses ∧ f.ownHints = [.number]) = true := by
    decide +kernel
  obtain ⟨f, hf, hfacts⟩ := (Option.any_eq_true _ _).mp hread
  obtain ⟨hlength, hseals, hown⟩ := of_decide_eq_true hfacts
  have hdeclared := isDeclared_of_only? hf
  have hhints := (hdeclared.returnHints_own_iff none).2.1.mpr hseals
  refine ⟨f, hdeclared, hlength, hhints, hown, ?_⟩
  rw [hhints, hown]
  rfl

/-- A return statement in a block of an abstract class counts as one of the function around it. -/
theorem not_forall_returnHints_own :
    ¬ ∀ (f : FunctionStatement) (doc : Option DocComment), f.IsDeclared →
      (f.declaration doc).returnHints = f.ownHints := by
  intro hall
  have hread : (only? .typeScript
      "function f()\x7babstract class A\x7bstatic\x7breturn 1\x7d\x7d\x7d").any (fun f =>
        f.body.hints ≠ f.ownHints) = true := by decide +kernel
  obtain ⟨f, hf, hne⟩ := (Option.any_eq_true _ _).mp hread
  exact of_decide_eq_true hne (hall f none (isDeclared_of_only? hf))

end FunctionStatement

end Script

end CustomFunctions
