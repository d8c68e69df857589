import Mathlib.Data.List.Basic
import Mathlib.Data.List.Flatten
import CustomFunctions.Script.Tree

/-!
# Return statements in a tree

Every return statement of a tree, at any depth, with the functions and classes that it stands in. The
hints of a tree tell of the return statements outside of scopes if no return statement hides in a
returned expression, and they do not depend on what stands inside the scopes.

## Main definitions

- `Tree.returns` — the return statements of a tree with what they stand in
- `Tree.hintsOutside` — the shapes that the return statements outside of some kinds of enclosures
  deliver
- `Tree.emptied` — a tree with nothing inside of some kinds of enclosures
- `Tree.TellsReturns` — the hints are those of the return statements outside of scopes
-/

namespace CustomFunctions.Script

-- ════════════════════════════════════════════════════════════════════════
-- Return statements and what they stand in
-- ════════════════════════════════════════════════════════════════════════

/-- What a return statement can stand in. -/
inductive Enclosure where
  /-- A function, an arrow function, a method, or a class that is not abstract. -/
  | scope
  | abstractClass
deriving DecidableEq

/-- A return statement of a tree. -/
structure Return where
  /-- The functions and classes around it, outermost first. -/
  around : List Enclosure
  value? : Option Tree

namespace Return

/-- The return statement, seen from outside of an enclosure. -/
def inside (e : Enclosure) (r : Return) : Return :=
  { r with around := e :: r.around }

/-- Does the return statement stand in none of the given kinds of enclosures? -/
def IsOutside (nested : List Enclosure) (r : Return) : Prop :=
  ∀ e ∈ r.around, e ∉ nested

instance (nested : List Enclosure) : DecidablePred (IsOutside nested) :=
  fun r => inferInstanceAs (Decidable (∀ e ∈ r.around, e ∉ nested))

/-- The shape of what the return statement delivers. -/
def hint (r : Return) : ReturnHint :=
  (r.value?.map Tree.shape).getD .empty

@[simp]
theorem hint_inside (e : Enclosure) (r : Return) : (r.inside e).hint = r.hint :=
  rfl

@[simp]
theorem isOutside_inside {nested : List Enclosure} {e : Enclosure} {r : Return} :
    (r.inside e).IsOutside nested ↔ e ∉ nested ∧ r.IsOutside nested := by
  simp [IsOutside, inside]

end Return

namespace Tree

variable {nested : List Enclosure} {t : Tree} {ts : List Tree}

mutual

/-- The return statements of a tree, in order. -/
def returns : Tree → List Return
  | returnNothing => [⟨[], none⟩]
  | returnValue value => ⟨[], some value⟩ :: returns value
  | scope contents => (returnsAll contents).map (·.inside .scope)
  | abstractClass contents => (returnsAll contents).map (·.inside .abstractClass)
  | template _ parts => returnsAll parts
  | object members => returnsAll members
  | array elements => returnsAll elements
  | parens inner => returns inner
  | unary _ argument => returns argument
  | place parts => returnsAll parts
  | other parts => returnsAll parts
  | boolean _ => []
  | number _ => []
  | string _ => []

/-- The return statements of several trees. -/
def returnsAll : List Tree → List Return
  | [] => []
  | t :: rest => returns t ++ returnsAll rest

end

/-- The shapes of what the return statements deliver that stand in none of the given kinds of
enclosures. -/
def hintsOutside (nested : List Enclosure) (t : Tree) : List ReturnHint :=
  (t.returns.filter (·.IsOutside nested)).map Return.hint

mutual

/-- The tree with nothing inside of the given kinds of enclosures. -/
def emptied (nested : List Enclosure) : Tree → Tree
  | scope contents => scope (if .scope ∈ nested then [] else emptiedAll nested contents)
  | abstractClass contents =>
    abstractClass (if .abstractClass ∈ nested then [] else emptiedAll nested contents)
  | returnValue value => returnValue (emptied nested value)
  | template text parts => template text (emptiedAll nested parts)
  | object members => object (emptiedAll nested members)
  | array elements => array (emptiedAll nested elements)
  | parens inner => parens (emptied nested inner)
  | unary operator argument => unary operator (emptied nested argument)
  | place parts => place (emptiedAll nested parts)
  | other parts => other (emptiedAll nested parts)
  | returnNothing => returnNothing
  | boolean b => boolean b
  | number text => number text
  | string text => string text

/-- The trees with nothing inside of the given kinds of enclosures. -/
def emptiedAll (nested : List Enclosure) : List Tree → List Tree
  | [] => []
  | t :: rest => emptied nested t :: emptiedAll nested rest

end

-- ════════════════════════════════════════════════════════════════════════
-- Trees and their parts
-- ════════════════════════════════════════════════════════════════════════

theorem hintsAll_eq (ts : List Tree) : hintsAll ts = ts.flatMap hints := by
  induction ts with
  | nil => rfl
  | cons t rest ih => rw [hintsAll, ih, List.flatMap_cons]

theorem returnsAll_eq (ts : List Tree) : returnsAll ts = ts.flatMap returns := by
  induction ts with
  | nil => rfl
  | cons t rest ih => rw [returnsAll, ih, List.flatMap_cons]

theorem emptiedAll_eq (ts : List Tree) : emptiedAll nested ts = ts.map (emptied nested) := by
  induction ts with
  | nil => rfl
  | cons t rest ih => rw [emptiedAll, ih, List.map_cons]

/-- What stands right inside a tree. -/
def parts : Tree → List Tree
  | template _ parts => parts
  | object members => members
  | array elements => elements
  | parens inner => [inner]
  | unary _ argument => [argument]
  | place parts => parts
  | returnValue value => [value]
  | scope contents => contents
  | abstractClass contents => contents
  | other parts => parts
  | _ => []

theorem sizeOf_of_mem_parts {p : Tree} (h : p ∈ t.parts) : sizeOf p < sizeOf t := by
  cases t <;> simp only [parts, List.mem_singleton, List.not_mem_nil] at h
  case parens | unary | returnValue =>
    subst h
    simp only [parens.sizeOf_spec, unary.sizeOf_spec, returnValue.sizeOf_spec]
    omega
  all_goals
    have := List.sizeOf_lt_of_mem h
    simp only [template.sizeOf_spec, object.sizeOf_spec, array.sizeOf_spec, place.sizeOf_spec,
      scope.sizeOf_spec, abstractClass.sizeOf_spec, other.sizeOf_spec]
    omega

/-- What holds of a tree whenever it holds of its parts holds of every tree. -/
theorem induction_on_parts {P : Tree → Prop} (step : ∀ t : Tree, (∀ p ∈ t.parts, P p) → P t)
    (t : Tree) : P t :=
  step t fun p _ => induction_on_parts step p
termination_by sizeOf t
decreasing_by exact sizeOf_of_mem_parts ‹_›

-- ════════════════════════════════════════════════════════════════════════
-- Hints outside of enclosures
-- ════════════════════════════════════════════════════════════════════════

theorem hintsOutside_of_returnsAll (h : t.returns = returnsAll ts) :
    t.hintsOutside nested = ts.flatMap (hintsOutside nested) := by
  rw [hintsOutside, h, returnsAll_eq, List.filter_flatMap, List.map_flatMap]
  rfl

theorem hintsOutside_of_inside {e : Enclosure}
    (h : t.returns = (returnsAll ts).map (·.inside e)) :
    t.hintsOutside nested = if e ∈ nested then [] else ts.flatMap (hintsOutside nested) := by
  have hother : hintsOutside nested (.other ts) = ts.flatMap (hintsOutside nested) :=
    hintsOutside_of_returnsAll rfl
  rw [← hother, hintsOutside, h, List.filter_map, List.map_map]
  by_cases hmem : e ∈ nested <;> simp [hmem, Function.comp_def, hintsOutside, returns]

theorem hintsOutside_returnValue (value : Tree) :
    (returnValue value).hintsOutside nested = value.shape :: value.hintsOutside nested := by
  simp [hintsOutside, returns, Return.IsOutside, Return.hint]

-- ════════════════════════════════════════════════════════════════════════
-- Trees with nothing inside their enclosures
-- ════════════════════════════════════════════════════════════════════════

@[simp]
theorem isArray_emptied (t : Tree) : (t.emptied nested).isArray = t.isArray := by
  cases t <;> simp [emptied, isArray]

@[simp]
theorem isNumber_emptied (t : Tree) : (t.emptied nested).isNumber = t.isNumber := by
  cases t <;> simp [emptied, isNumber]

/-- Nothing inside an enclosure tells of the shape of an expression. -/
theorem shape_emptied (t : Tree) : (t.emptied nested).shape = t.shape := by
  induction t using induction_on_parts with
  | step t ih =>
    cases t with
    | parens inner => exact ih inner (List.mem_singleton_self inner)
    | array elements => simp [emptied, shape, emptiedAll_eq, Function.comp_def]
    | _ => simp [emptied, shape]

theorem flatMap_emptiedAll {β : Type} {f : Tree → List β}
    (h : ∀ p ∈ ts, f (p.emptied nested) = f p) : (emptiedAll nested ts).flatMap f = ts.flatMap f := by
  rw [emptiedAll_eq, List.flatMap_map]
  exact List.flatMap_congr h

/-- The return statements outside of enclosures deliver the same, whatever stands inside. -/
theorem hintsOutside_emptied (t : Tree) :
    (t.emptied nested).hintsOutside nested = t.hintsOutside nested := by
  induction t using induction_on_parts with
  | step t ih =>
    cases t with
    | returnValue value =>
      rw [emptied, hintsOutside_returnValue, hintsOutside_returnValue, shape_emptied,
        ih value (List.mem_singleton_self value)]
    | scope contents =>
      rw [emptied, hintsOutside_of_inside rfl, hintsOutside_of_inside rfl]
      split
      · rfl
      · exact flatMap_emptiedAll ih
    | abstractClass contents =>
      rw [emptied, hintsOutside_of_inside rfl, hintsOutside_of_inside rfl]
      split
      · rfl
      · exact flatMap_emptiedAll ih
    | parens inner => exact ih inner (List.mem_singleton_self inner)
    | unary operator argument => exact ih argument (List.mem_singleton_self argument)
    | returnNothing => rfl
    | boolean b => rfl
    | number text => rfl
    | string text => rfl
    | _ =>
      rw [emptied, hintsOutside_of_returnsAll rfl, hintsOutside_of_returnsAll rfl]
      exact flatMap_emptiedAll ih

-- ════════════════════════════════════════════════════════════════════════
-- Lists of trees
-- ════════════════════════════════════════════════════════════════════════

/-- All trees of a list have the property. -/
def AreAll (P : Tree → Prop) (ts : List Tree) : Prop :=
  ∀ t ∈ ts, P t

namespace AreAll

variable {P Q : Tree → Prop} {us : List Tree}

theorem nil : AreAll P [] :=
  nofun

theorem cons (ht : P t) (hts : AreAll P ts) : AreAll P (t :: ts) :=
  List.forall_mem_cons.mpr ⟨ht, hts⟩

theorem singleton (ht : P t) : AreAll P [t] :=
  cons ht nil

theorem append (hts : AreAll P ts) (hus : AreAll P us) : AreAll P (ts ++ us) :=
  List.forall_mem_append.mpr ⟨hts, hus⟩

theorem flatMap {β : Type} {list : List β} {f : β → List Tree} (h : ∀ b ∈ list, AreAll P (f b)) :
    AreAll P (list.flatMap f) := by
  intro t ht
  obtain ⟨b, hb, ht⟩ := List.mem_flatMap.mp ht
  exact h b hb t ht

theorem flatten {lists : List (List Tree)} (h : ∀ ts ∈ lists, AreAll P ts) :
    AreAll P lists.flatten := by
  rw [← List.flatMap_id]
  exact flatMap h

theorem toList {read : Option Tree} (h : ∀ t ∈ read, P t) : AreAll P read.toList :=
  fun t ht => h t (Option.mem_toList.mp ht)

theorem getD {read : Option (List Tree)} (h : ∀ ts ∈ read, AreAll P ts) :
    AreAll P (read.getD []) := by
  cases read with
  | none => exact nil
  | some ts => exact h ts rfl

theorem mono (h : AreAll P ts) (himp : ∀ t, P t → Q t) : AreAll Q ts :=
  fun t ht => himp t (h t ht)

end AreAll

-- ════════════════════════════════════════════════════════════════════════
-- Trees that tell their return statements
-- ════════════════════════════════════════════════════════════════════════

/-- All return statements stand in scopes. -/
def IsQuiet (t : Tree) : Prop :=
  ∀ r ∈ t.returns, .scope ∈ r.around

/-- The hints are those of the return statements outside of scopes. -/
def TellsReturns (t : Tree) : Prop :=
  t.hints = t.hintsOutside [.scope]

/-- The hints tell of no other return statements than those outside of scopes. -/
theorem hints_sublist (t : Tree) : t.hints.Sublist (t.hintsOutside [.scope]) := by
  induction t using induction_on_parts with
  | step t ih =>
    cases t with
    | returnValue value =>
      -- the hints pass over what stands in the returned expression
      rw [hints, hintsOutside_returnValue]
      exact (List.nil_sublist _).cons_cons _
    | scope contents => exact List.nil_sublist _
    | abstractClass contents =>
      rw [hints, hintsAll_eq, hintsOutside_of_inside rfl]
      exact .flatMap_right _ ih
    | parens inner => exact ih inner (List.mem_singleton_self inner)
    | unary operator argument => exact ih argument (List.mem_singleton_self argument)
    | returnNothing => exact .refl _
    | boolean b => exact .slnil
    | number text => exact .slnil
    | string text => exact .slnil
    | _ =>
      rw [hints, hintsAll_eq, hintsOutside_of_returnsAll rfl]
      exact .flatMap_right _ ih

theorem IsQuiet.hintsOutside_eq_nil (h : t.IsQuiet) : t.hintsOutside [.scope] = [] := by
  rw [hintsOutside, List.map_eq_nil_iff, List.filter_eq_nil_iff]
  intro r hr hout
  exact of_decide_eq_true hout _ (h r hr) (List.mem_singleton_self _)

theorem IsQuiet.tellsReturns (h : t.IsQuiet) : t.TellsReturns := by
  have hnil := h.hintsOutside_eq_nil
  have hhints : t.hints = [] := List.sublist_nil.mp (hnil ▸ t.hints_sublist)
  rw [TellsReturns, hhints, hnil]

theorem isQuiet_of_returnsAll (hreturns : t.returns = returnsAll ts) (h : AreAll IsQuiet ts) :
    t.IsQuiet := by
  intro r hr
  rw [hreturns, returnsAll_eq, List.mem_flatMap] at hr
  obtain ⟨p, hp, hr⟩ := hr
  exact h p hp r hr

theorem isQuiet_other (h : AreAll IsQuiet ts) : (other ts).IsQuiet :=
  isQuiet_of_returnsAll rfl h

theorem isQuiet_of_returns_eq_nil (h : t.returns = []) : t.IsQuiet := by
  intro r hr
  rw [h] at hr
  cases hr

theorem isQuiet_scope (contents : List Tree) : (scope contents).IsQuiet := by
  intro r hr
  obtain ⟨_, _, rfl⟩ := List.mem_map.mp hr
  exact List.mem_cons_self

theorem hintsAll_of_tellsReturns (h : AreAll TellsReturns ts) :
    hintsAll ts = ts.flatMap (hintsOutside [.scope]) := by
  rw [hintsAll_eq]
  exact List.flatMap_congr h

theorem tellsReturns_other (h : AreAll TellsReturns ts) : (other ts).TellsReturns := by
  rw [TellsReturns, hints, hintsAll_of_tellsReturns h, hintsOutside_of_returnsAll rfl]

theorem tellsReturns_abstractClass (h : AreAll TellsReturns ts) :
    (abstractClass ts).TellsReturns := by
  rw [TellsReturns, hints, hintsAll_of_tellsReturns h, hintsOutside_of_inside rfl]
  rfl

theorem tellsReturns_returnNothing : returnNothing.TellsReturns :=
  rfl

/-- A return statement is told of, and no other one hides in what it delivers. -/
theorem tellsReturns_returnValue {value : Tree} (h : value.IsQuiet) :
    (returnValue value).TellsReturns := by
  rw [TellsReturns, hints, hintsOutside_returnValue, h.hintsOutside_eq_nil]

end Tree

end CustomFunctions.Script
