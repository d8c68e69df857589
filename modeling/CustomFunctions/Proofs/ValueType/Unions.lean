import CustomFunctions.Proofs.ValueType.Invocations

/-!
# Unions

The type of a union depends on the types that its members have, not on their order or number: the
union is refused if a member is refused or an invocation, it is the type that all members have, if
there is one, and of any type otherwise. Names of missing values do not count as members. But a union
of nothing else is refused, so parentheses around such names make a difference.

## Main definitions

- `ValueType.AgreesWith` — types that differ at most in the reason of a refusal
- `ValueType.resolve_union_by_members` — the type of a union by its members
- `ValueType.resolve_union_grouped_iff` — when parentheses around members make no difference
-/

namespace CustomFunctions

namespace TypeExpr

/-- The expression names a missing value. -/
def IsMissing (e : TypeExpr) : Prop :=
  e = .named "null" ∨ e = .named "undefined"

/-- The second list is the first one with names of missing values put in anywhere, any number of
them. -/
inductive Padded : List TypeExpr → List TypeExpr → Prop
  | nil : Padded [] []
  | cons (e : TypeExpr) {es fs : List TypeExpr} (h : Padded es fs) : Padded (e :: es) (e :: fs)
  | missing {e : TypeExpr} {es fs : List TypeExpr} (he : e.IsMissing) (h : Padded es fs) :
      Padded es (e :: fs)

end TypeExpr

namespace ValueType

/-- The types are equal, or both are refused, for whatever reasons. -/
def AgreesWith (s t : ValueType) : Prop :=
  s = t ∨ (s.isUnsupported = true ∧ t.isUnsupported = true)

/-- May a member of a union have the type? -/
def fitsUnion (t : ValueType) : Bool :=
  t.invocationKind?.isNone && !t.isUnsupported

variable {types others inner before after : List ValueType} {s t : ValueType}

theorem fitsUnion_iff : t.fitsUnion = true ↔ t.invocationKind? = none ∧ t.isUnsupported = false := by
  simp [fitsUnion]

theorem fitsUnion_of_isUnsupported (h : t.isUnsupported = true) : t.fitsUnion = false := by
  simp [fitsUnion, h]

-- ════════════════════════════════════════════════════════════════════════
-- Unions of resolved types
-- ════════════════════════════════════════════════════════════════════════

/-- There are no members, or one of them does not fit. -/
def IsRefusedUnion (types : List ValueType) : Prop :=
  types = [] ∨ ∃ s ∈ types, s.fitsUnion = false

theorem ofUnion_of_refused (h : IsRefusedUnion types) : (ofUnion types).isUnsupported = true := by
  unfold ofUnion
  split
  · rfl
  next first rest =>
  split
  · rfl
  next hkind =>
  split
  · next bad hbad => exact List.find?_some hbad
  · next hrefused =>
    exfalso
    obtain hnil | ⟨s, hs, hunfit⟩ := h
    · cases hnil
    · have hnone := List.find?_eq_none.mp hkind s hs
      have hsupported := List.find?_eq_none.mp hrefused s hs
      simp_all [fitsUnion]

theorem ofUnion_of_fits {first : ValueType} {rest : List ValueType}
    (h : ∀ s ∈ first :: rest, s.fitsUnion = true) :
    ofUnion (first :: rest) = if rest.all (· = first) then first else .any := by
  have hkind : (first :: rest).find? (·.invocationKind?.isSome) = none := by
    rw [List.find?_eq_none]
    intro s hs
    simp [(fitsUnion_iff.mp (h s hs)).1]
  have hrefused : (first :: rest).find? isUnsupported = none := by
    rw [List.find?_eq_none]
    intro s hs
    simp [(fitsUnion_iff.mp (h s hs)).2]
  rw [ofUnion, hkind, hrefused]

theorem ofUnion_of_common (hne : types ≠ []) (hfits : t.fitsUnion = true) (h : ∀ s ∈ types, s = t) :
    ofUnion types = t := by
  obtain ⟨first, rest, rfl⟩ := List.exists_cons_of_ne_nil hne
  obtain rfl := h first List.mem_cons_self
  rw [ofUnion_of_fits fun s hs => (h s hs).symm ▸ hfits, if_pos]
  simpa using h

theorem ofUnion_of_mixed (hfits : ∀ s ∈ types, s.fitsUnion = true) (h : ∀ t, ∃ s ∈ types, s ≠ t) :
    ofUnion types = .any := by
  cases types with
  | nil =>
    obtain ⟨s, hs, _⟩ := h .any
    cases hs
  | cons first rest =>
    rw [ofUnion_of_fits hfits, if_neg]
    obtain ⟨s, hs, hdiffers⟩ := h first
    intro hall
    rcases List.mem_cons.mp hs with rfl | hs
    · exact hdiffers rfl
    · exact hdiffers (of_decide_eq_true (List.all_eq_true.mp hall s hs))

/-- A union is refused, or its members fit and have one type, or they fit and have several. -/
theorem union_cases (types : List ValueType) :
    IsRefusedUnion types ∨
      (∃ t, types ≠ [] ∧ t.fitsUnion = true ∧ ∀ s ∈ types, s = t) ∨
      ((∀ s ∈ types, s.fitsUnion = true) ∧ ∀ t, ∃ s ∈ types, s ≠ t) := by
  by_cases hrefused : IsRefusedUnion types
  · exact .inl hrefused
  · right
    simp only [IsRefusedUnion, not_or, not_exists, not_and, Bool.not_eq_false] at hrefused
    obtain ⟨hne, hfits⟩ := hrefused
    by_cases hcommon : ∃ t, ∀ s ∈ types, s = t
    · left
      obtain ⟨t, h⟩ := hcommon
      obtain ⟨s, hs⟩ := List.exists_mem_of_ne_nil types hne
      exact ⟨t, hne, h s hs ▸ hfits s hs, h⟩
    · right
      refine ⟨hfits, fun t => ?_⟩
      by_contra hsame
      refine hcommon ⟨t, fun s hs => ?_⟩
      by_contra hdiffers
      exact hsame ⟨s, hs, hdiffers⟩

/-- Order and number of the members do not matter. -/
theorem ofUnion_agreesWith (hsame : ∀ s, s ∈ types ↔ s ∈ others) :
    (ofUnion types).AgreesWith (ofUnion others) := by
  have hempty : types = [] ↔ others = [] := by
    rw [List.eq_nil_iff_forall_not_mem, List.eq_nil_iff_forall_not_mem]
    exact forall_congr' fun s => not_congr (hsame s)
  rcases union_cases types with hrefused | ⟨t, hne, ht, h⟩ | ⟨hfits, h⟩
  · refine .inr ⟨ofUnion_of_refused hrefused, ofUnion_of_refused ?_⟩
    simpa only [IsRefusedUnion, hempty, hsame] using hrefused
  · left
    rw [ofUnion_of_common hne ht h, ofUnion_of_common (mt hempty.mpr hne) ht]
    simpa only [hsame] using h
  · left
    rw [ofUnion_of_mixed hfits h, ofUnion_of_mixed]
    · simpa only [hsame] using hfits
    · simpa only [hsame] using h

theorem ofUnion_of_any (hfits : ∀ s ∈ types, s.fitsUnion = true) (h : .any ∈ types) :
    ofUnion types = .any := by
  by_cases hall : ∀ s ∈ types, s = .any
  · exact ofUnion_of_common (List.ne_nil_of_mem h) rfl hall
  · refine ofUnion_of_mixed hfits fun t => ?_
    by_cases ht : t = .any
    · subst ht
      push Not at hall
      exact hall
    · exact ⟨.any, h, Ne.symm ht⟩

/-- Next to members of several types, `any` stands for all of them. -/
theorem ofUnion_around_mixed (hfits : ∀ s ∈ inner, s.fitsUnion = true)
    (h : ∀ t, ∃ s ∈ inner, s ≠ t) :
    (ofUnion (before ++ .any :: after)).AgreesWith (ofUnion (before ++ inner ++ after)) := by
  by_cases houter : ∀ s ∈ before ++ after, s.fitsUnion = true
  · left
    rw [List.forall_mem_append] at houter
    rw [ofUnion_of_any _ (by simp), ofUnion_of_mixed]
    · rw [List.forall_mem_append, List.forall_mem_append]
      exact ⟨⟨houter.1, hfits⟩, houter.2⟩
    · intro t
      obtain ⟨s, hs, hdiffers⟩ := h t
      exact ⟨s, by simp [hs], hdiffers⟩
    · rw [List.forall_mem_append, List.forall_mem_cons]
      exact ⟨houter.1, rfl, houter.2⟩
  · push Not at houter
    obtain ⟨s, hs, hunfit⟩ := houter
    have hfalse : s.fitsUnion = false := Bool.eq_false_iff.mpr hunfit
    rw [List.mem_append] at hs
    refine .inr ⟨ofUnion_of_refused (.inr ⟨s, ?_, hfalse⟩), ofUnion_of_refused (.inr ⟨s, ?_, hfalse⟩)⟩
    · rw [List.mem_append, List.mem_cons]
      exact hs.imp_right .inr
    · rw [List.append_assoc, List.mem_append, List.mem_append]
      exact hs.imp_right .inr

/-- A union among the members can be replaced by its own members, unless it has none. -/
theorem ofUnion_ungroup (hne : inner ≠ []) :
    (ofUnion (before ++ ofUnion inner :: after)).AgreesWith (ofUnion (before ++ inner ++ after)) := by
  rcases union_cases inner with (hnil | ⟨s, hs, hunfit⟩) | ⟨t, _, ht, h⟩ | ⟨hfits, h⟩
  · exact absurd hnil hne
  · have hinner : (ofUnion inner).fitsUnion = false :=
      fitsUnion_of_isUnsupported (ofUnion_of_refused (.inr ⟨s, hs, hunfit⟩))
    refine .inr ⟨ofUnion_of_refused (.inr ⟨_, ?_, hinner⟩), ofUnion_of_refused (.inr ⟨s, ?_, hunfit⟩)⟩
    · simp
    · simp [hs]
  · rw [ofUnion_of_common hne ht h]
    refine ofUnion_agreesWith fun s => ?_
    have hinner : s ∈ inner ↔ s = t := by
      refine ⟨h s, ?_⟩
      rintro rfl
      obtain ⟨r, hr⟩ := List.exists_mem_of_ne_nil inner hne
      exact h r hr ▸ hr
    simp [hinner]
  · rw [ofUnion_of_mixed hfits h]
    exact ofUnion_around_mixed hfits h

theorem ofUnion_eq_iff (hany : t ≠ .any) (hsupported : t.isUnsupported = false) :
    ofUnion types = t ↔ types ≠ [] ∧ (∀ s ∈ types, s = t) ∧ t.invocationKind? = none := by
  constructor
  · rintro rfl
    rcases union_cases types with hrefused | ⟨t, hne, ht, h⟩ | ⟨hfits, h⟩
    · rw [ofUnion_of_refused hrefused] at hsupported
      cases hsupported
    · rw [ofUnion_of_common hne ht h]
      exact ⟨hne, h, (fitsUnion_iff.mp ht).1⟩
    · exact absurd (ofUnion_of_mixed hfits h) hany
  · rintro ⟨hne, h, hkind⟩
    exact ofUnion_of_common hne (fitsUnion_iff.mpr ⟨hkind, hsupported⟩) h

-- ════════════════════════════════════════════════════════════════════════
-- Members
-- ════════════════════════════════════════════════════════════════════════

section Members

variable (registry : EnumRegistry) (position : Position)

theorem isNullish_iff (e : TypeExpr) : isNullish e = true ↔ e.IsMissing := by
  cases e <;> simp [isNullish, TypeExpr.name?, TypeExpr.IsMissing]

theorem resolve_number : resolve registry position (.named "number") = .number := by
  rw [resolve_named]
  rfl

theorem resolve_union (members : List TypeExpr) :
    resolve registry position (.union members) = ofUnion (resolveMembers registry position members) := by
  rw [resolve]
  rfl

theorem resolveMembers_eq_map (members : List TypeExpr) :
    resolveMembers registry position members =
      (members.filter (! isNullish ·)).map (resolve registry position) := by
  induction members with
  | nil => rw [resolveMembers, List.filter_nil, List.map_nil]
  | cons e rest ih =>
    rw [resolveMembers, ih]
    by_cases h : isNullish e = true <;> simp [h]

theorem mem_resolveMembers {members : List TypeExpr} :
    t ∈ resolveMembers registry position members ↔
      ∃ e ∈ members, ¬ e.IsMissing ∧ resolve registry position e = t := by
  simp [resolveMembers_eq_map, ← isNullish_iff, and_assoc]

theorem forall_mem_resolveMembers {members : List TypeExpr} {p : ValueType → Prop} :
    (∀ s ∈ resolveMembers registry position members, p s) ↔
      ∀ e ∈ members, ¬ e.IsMissing → p (resolve registry position e) := by
  rw [resolveMembers_eq_map, List.forall_mem_map]
  simp [← isNullish_iff]

theorem resolveMembers_eq_nil {members : List TypeExpr} :
    resolveMembers registry position members = [] ↔ ∀ e ∈ members, e.IsMissing := by
  simp [resolveMembers_eq_map, ← isNullish_iff]

theorem resolveMembers_append (es fs : List TypeExpr) :
    resolveMembers registry position (es ++ fs) =
      resolveMembers registry position es ++ resolveMembers registry position fs := by
  simp [resolveMembers_eq_map]

theorem resolveMembers_padded {es fs : List TypeExpr} (h : TypeExpr.Padded es fs) :
    resolveMembers registry position fs = resolveMembers registry position es := by
  induction h with
  | nil => rfl
  | cons e _ ih => rw [resolveMembers, resolveMembers, ih]
  | missing he _ ih => rw [resolveMembers, if_pos ((isNullish_iff _).mpr he), ih]

theorem resolveMembers_union (inner after : List TypeExpr) :
    resolveMembers registry position (.union inner :: after) =
      ofUnion (resolveMembers registry position inner) ::
        resolveMembers registry position after := by
  have hunion : isNullish (.union inner) = false := rfl
  rw [resolveMembers, hunion, if_neg Bool.false_ne_true, resolve_union]

theorem resolve_union_grouped (before inner after : List TypeExpr) :
    resolve registry position (.union (before ++ .union inner :: after)) =
      ofUnion (resolveMembers registry position before ++
        ofUnion (resolveMembers registry position inner) ::
          resolveMembers registry position after) := by
  rw [resolve_union, resolveMembers_append, resolveMembers_union]

/-- A union of nothing but missing values is refused, and so is every union around it. -/
theorem resolve_union_around_missing {inner : List TypeExpr} (h : ∀ e ∈ inner, e.IsMissing)
    (before after : List TypeExpr) :
    (resolve registry position (.union (before ++ .union inner :: after))).isUnsupported = true := by
  have hrefused : (ofUnion []).fitsUnion = false := rfl
  rw [resolve_union_grouped, (resolveMembers_eq_nil registry position).mpr h]
  exact ofUnion_of_refused (.inr ⟨_, by simp, hrefused⟩)

-- ════════════════════════════════════════════════════════════════════════
-- Unions of expressions
-- ════════════════════════════════════════════════════════════════════════

/-- Expressions with the same members make up the same union, but for the reason of a refusal, names of
missing values make no difference, and a type that tells something is that of the union exactly if it
is that of every member and no invocation. -/
theorem resolve_union_by_members (members : List TypeExpr) :
    (∀ others : List TypeExpr, (∀ e, e ∈ members ↔ e ∈ others) →
      (resolve registry position (.union members)).AgreesWith
        (resolve registry position (.union others))) ∧
    (∀ padded, TypeExpr.Padded members padded →
      resolve registry position (.union padded) = resolve registry position (.union members)) ∧
    ∀ t, t ≠ .any → t.isUnsupported = false →
      (resolve registry position (.union members) = t ↔
        (∃ e ∈ members, ¬ e.IsMissing) ∧
          (∀ e ∈ members, ¬ e.IsMissing → resolve registry position e = t) ∧
            t.invocationKind? = none) := by
  refine ⟨fun others hsame => ?_, fun padded hpadded => ?_, fun t hany hsupported => ?_⟩
  · rw [resolve_union, resolve_union]
    refine ofUnion_agreesWith fun s => ?_
    simp only [mem_resolveMembers, hsame]
  · rw [resolve_union, resolve_union, resolveMembers_padded registry position hpadded]
  · rw [resolve_union, ofUnion_eq_iff hany hsupported, Ne, resolveMembers_eq_nil,
      forall_mem_resolveMembers]
    push Not
    exact Iff.rfl

theorem resolve_union_by_members_number :
    resolve .empty .parameter (.union [.named "null", .named "number", .literal .number]) =
      .number := by
  obtain ⟨_, _, htype⟩ := resolve_union_by_members .empty .parameter
    [.named "null", .named "number", .literal .number]
  have hliteral : resolve .empty .parameter (.literal .number) = .number := by
    rw [resolve]
    rfl
  refine (htype .number nofun rfl).mpr
    ⟨⟨.named "number", by simp, by simp [TypeExpr.IsMissing]⟩, ?_, rfl⟩
  simp [TypeExpr.IsMissing, resolve_number, hliteral]

/-- Parentheses around members make no difference, but for the reason of a refusal, exactly if they
hold another member than missing values or the union is refused without them, too. -/
theorem resolve_union_grouped_iff (before inner after : List TypeExpr) :
    (resolve registry position (.union (before ++ .union inner :: after))).AgreesWith
        (resolve registry position (.union (before ++ inner ++ after))) ↔
      (∃ e ∈ inner, ¬ e.IsMissing) ∨
        (resolve registry position (.union (before ++ inner ++ after))).isUnsupported = true := by
  by_cases hinner : ∃ e ∈ inner, ¬ e.IsMissing
  · refine iff_of_true ?_ (.inl hinner)
    rw [resolve_union_grouped, resolve_union, resolveMembers_append, resolveMembers_append]
    refine ofUnion_ungroup ?_
    rw [Ne, resolveMembers_eq_nil]
    push Not
    exact hinner
  · have hmissing : ∀ e ∈ inner, e.IsMissing := by
      push Not at hinner
      exact hinner
    have hgrouped := resolve_union_around_missing registry position hmissing before after
    constructor
    · rintro (heq | ⟨_, hflat⟩)
      · exact .inr (heq ▸ hgrouped)
      · exact .inr hflat
    · rintro (hmember | hflat)
      · exact absurd hmember hinner
      · exact .inr ⟨hgrouped, hflat⟩

/-- In parentheses, names of missing values are not left out of a union. -/
theorem not_forall_resolve_union_grouped :
    ¬ ∀ (registry : EnumRegistry) (position : Position) (before inner after : List TypeExpr),
      (resolve registry position (.union (before ++ .union inner :: after))).AgreesWith
        (resolve registry position (.union (before ++ inner ++ after))) := by
  intro h
  have hnumber := h .empty .parameter [.named "number"] [.named "null", .named "undefined"] []
  have hgrouped : (resolve .empty .parameter (.union ([.named "number"] ++
      .union [.named "null", .named "undefined"] :: []))).isUnsupported = true :=
    resolve_union_around_missing _ _ (by simp [TypeExpr.IsMissing]) _ _
  have hflat : resolve .empty .parameter (.union ([.named "number"] ++
      [.named "null", .named "undefined"] ++ [])) = .number := by
    have hmembers : resolveMembers .empty .parameter
        ([.named "number"] ++ [.named "null", .named "undefined"] ++ []) = [.number] := by
      simp [resolveMembers_eq_map, isNullish, TypeExpr.name?, resolve_number]
    rw [resolve_union, hmembers]
    rfl
  rw [hflat] at hnumber
  rcases hnumber with heq | ⟨_, hrefused⟩
  · rw [heq] at hgrouped
    cases hgrouped
  · cases hrefused

end Members

end ValueType

end CustomFunctions
