import CustomFunctions.Proofs.TypeExpr.Grammar

/-!
# The parser accepts its grammar

Without the arrow of function types among them, tokens are read as a type exactly if the grammar
derives the type from them, so no choice that the parser makes cuts off a derivation. What is read is
derived by induction on the number of tokens, and what is derived is read by induction on the
derivation.

## Main definitions

- `Parser.Closes` — tokens up to the mark that closes what has been opened
- `Parser.itemsAreDerived` — what is read is derived
- `Parser.read_item` — what is derived is read
- `accepts_iff_isWhole` — the parser accepts exactly its grammar
-/

namespace CustomFunctions.TypeExpr

namespace Parser

variable {ts rest : List Token} {e : TypeExpr}

-- ════════════════════════════════════════════════════════════════════════
-- Braces
-- ════════════════════════════════════════════════════════════════════════

/-- The tokens hold one closing mark more than there are opening ones among and before them. -/
def IsClosed (opening closing : Char) (depth : Nat) (ts : List Token) : Prop :=
  ts.count (.mark closing) = ts.count (.mark opening) + depth + 1

/-- The tokens end with the mark that closes what has been opened. -/
def Closes (opening closing : Char) (depth : Nat) (ts : List Token) : Prop :=
  IsClosed opening closing depth ts ∧
    ∀ front, front <+: ts → IsClosed opening closing depth front → front = ts

variable {opening closing : Char} {depth depth' : Nat}

theorem not_isClosed_nil : ¬ IsClosed opening closing depth [] := by
  simp [IsClosed]

/-- A token in front only changes how many marks are open. -/
theorem closes_cons {t : Token}
    (h : ∀ l, IsClosed opening closing depth (t :: l) ↔ IsClosed opening closing depth' l) :
    Closes opening closing depth (t :: ts) ↔ Closes opening closing depth' ts := by
  refine and_congr (h ts) ⟨fun hshortest front hfront hclosed => ?_,
    fun hshortest front hfront hclosed => ?_⟩
  · have heq := hshortest (t :: front) ((List.prefix_cons_inj t).mpr hfront) ((h front).mpr hclosed)
    exact (List.cons.inj heq).2
  · cases front with
    | nil => exact absurd hclosed not_isClosed_nil
    | cons first front =>
      obtain ⟨rfl, htail⟩ := List.cons_prefix_cons.mp hfront
      rw [hshortest front htail ((h front).mp hclosed)]

theorem exists_closes_cons {t : Token} :
    (∃ front, t :: ts = front ++ rest ∧ Closes opening closing depth front) ↔
      ∃ front, ts = front ++ rest ∧ Closes opening closing depth (t :: front) := by
  constructor
  · rintro ⟨front, hsplit, hcloses⟩
    cases front with
    | nil => exact absurd hcloses.1 not_isClosed_nil
    | cons first front =>
      obtain ⟨rfl, htail⟩ := List.cons.inj hsplit
      exact ⟨front, htail, hcloses⟩
  · rintro ⟨front, rfl, hcloses⟩
    exact ⟨t :: front, rfl, hcloses⟩

theorem exists_closes_behind {t : Token}
    (h : ∀ l, IsClosed opening closing depth (t :: l) ↔ IsClosed opening closing depth' l) :
    (∃ front, t :: ts = front ++ rest ∧ Closes opening closing depth front) ↔
      ∃ front, ts = front ++ rest ∧ Closes opening closing depth' front :=
  exists_closes_cons.trans (exists_congr fun _ => and_congr_right fun _ => closes_cons h)

/-- The mark that closes the outermost opening ends the tokens. -/
theorem closes_closing_cons (hne : opening ≠ closing) :
    Closes opening closing 0 (.mark closing :: ts) ↔ ts = [] := by
  have hclosed : IsClosed opening closing 0 [.mark closing] := by
    simp [IsClosed, hne.symm]
  constructor
  · rintro ⟨_, hshortest⟩
    have heq := hshortest [.mark closing] (by simp) hclosed
    exact (List.cons.inj heq).2.symm
  · rintro rfl
    refine ⟨hclosed, fun front hfront hfrontClosed => ?_⟩
    cases front with
    | nil => exact absurd hfrontClosed not_isClosed_nil
    | cons first front =>
      obtain ⟨rfl, htail⟩ := List.cons_prefix_cons.mp hfront
      rw [List.prefix_nil.mp htail]

theorem afterClosing?_eq_some_iff (hne : opening ≠ closing) :
    afterClosing? opening closing depth ts = some rest ↔
      ∃ front, ts = front ++ rest ∧ Closes opening closing depth front := by
  have hmarks : Token.mark closing ≠ .mark opening := by
    simpa using hne.symm
  fun_induction afterClosing? opening closing depth ts with
  | case1 depth =>
    refine iff_of_false (Option.some_ne_none rest).symm ?_
    rintro ⟨front, hsplit, hcloses⟩
    obtain ⟨rfl, _⟩ := List.append_eq_nil_iff.mp hsplit.symm
    exact not_isClosed_nil hcloses.1
  | case2 ts =>
    rw [exists_closes_cons]
    simp only [closes_closing_cons hne, Option.some.injEq]
    constructor
    · rintro rfl
      exact ⟨[], rfl, rfl⟩
    · rintro ⟨_, hsplit, rfl⟩
      exact hsplit
  | case3 ts depth ih =>
    refine ih.trans (exists_closes_behind fun l => ?_).symm
    simp only [IsClosed, List.count_cons_self, List.count_cons_of_ne hmarks]
    omega
  | case4 depth ts _ ih =>
    refine ih.trans (exists_closes_behind fun l => ?_).symm
    simp only [IsClosed, List.count_cons_self, List.count_cons_of_ne hmarks.symm]
    omega
  | case5 depth t ts hclosing hopening ih =>
    refine ih.trans (exists_closes_behind fun l => ?_).symm
    simp only [IsClosed, List.count_cons_of_ne hclosing, List.count_cons_of_ne hopening]

theorem isBraced_cons : Grammar.IsBraced (.mark '{' :: ts) ↔ Closes '{' '}' 0 ts := by
  have hclosed (l : List Token) : (Token.mark '{' :: l).count (.mark '}') =
      (Token.mark '{' :: l).count (.mark '{') ↔ IsClosed '{' '}' 0 l := by
    rw [List.count_cons_self, List.count_cons_of_ne (by decide), IsClosed]
  constructor
  · rintro ⟨_, hbalanced, hshortest⟩
    refine ⟨(hclosed ts).mp hbalanced, fun front hfront hfrontClosed => ?_⟩
    have heq := hshortest (.mark '{' :: front) ((List.prefix_cons_inj _).mpr hfront)
      (List.cons_ne_nil _ _) ((hclosed front).mpr hfrontClosed)
    exact (List.cons.inj heq).2
  · rintro ⟨hts, hshortest⟩
    refine ⟨rfl, (hclosed ts).mpr hts, fun front hfront hne hbalanced => ?_⟩
    obtain ⟨first, front, rfl⟩ := List.exists_cons_of_ne_nil hne
    obtain ⟨rfl, htail⟩ := List.cons_prefix_cons.mp hfront
    rw [hshortest front htail ((hclosed front).mp hbalanced)]

-- ════════════════════════════════════════════════════════════════════════
-- Names
-- ════════════════════════════════════════════════════════════════════════

theorem qualify_pointed (first : String) (parts : List String) (rest : List Token) :
    qualify first (Grammar.pointed parts ++ rest) = qualify (Grammar.joined first parts) rest := by
  induction parts generalizing first with
  | nil => rfl
  | cons part parts ih => exact ih (first ++ "." ++ part)

/-- A name is read up to where it goes on with no further part, and a point before an opening angle
bracket is dropped. -/
theorem pointed_of_qualify {first full : String} (h : qualify first ts = (some full, rest)) :
    ∃ parts, full = Grammar.joined first parts ∧
      (ts = Grammar.pointed parts ++ rest ∨
        rest.head? = some (.mark '<') ∧ ts = Grammar.pointed parts ++ .mark '.' :: rest) := by
  fun_induction qualify first ts with
  | case1 name part ts ih =>
    obtain ⟨parts, rfl, hsplit⟩ := ih h
    refine ⟨part :: parts, rfl, ?_⟩
    rcases hsplit with rfl | ⟨hangle, rfl⟩
    · exact .inl rfl
    · exact .inr ⟨hangle, rfl⟩
  | case2 name ts =>
    cases h
    exact ⟨[], rfl, .inr ⟨rfl, rfl⟩⟩
  | case3 => cases h
  | case4 =>
    cases h
    exact ⟨[], rfl, .inl rfl⟩

-- ════════════════════════════════════════════════════════════════════════
-- What is read is derived
-- ════════════════════════════════════════════════════════════════════════

theorem not_arrow_of_suffix {us : List Token} (harrow : .arrow ∉ ts) (h : us <:+ ts) :
    .arrow ∉ us :=
  fun hmem => harrow (h.subset hmem)

/-- What is read as an item from less than the given number of tokens is derived from them. -/
def ItemsAreDerived (n : Nat) : Prop :=
  ∀ ts e rest, ts.length < n → .arrow ∉ ts → (item ts).result? = some (e, rest) →
    Grammar.IsItem ts e rest

variable {n : Nat} {before : List TypeExpr} {first : TypeExpr} {start : List Token}

/-- Behind an item, further members are read one after the other. -/
theorem members_derived (hitems : ItemsAreDerived n) (hlt : ts.length < n) (harrow : .arrow ∉ ts)
    (hfirst : Grammar.IsItem start first ts)
    (h : (moreMembers (first :: before) ts).result? = some (e, rest)) :
    ∃ es, Grammar.AreMembers start es rest ∧ e = ofMembers (before.reverse ++ es) := by
  induction hn : ts.length using Nat.strongRecOn generalizing ts start first before with
  | ind m ih =>
  by_cases hbar : ts.head? = some (.mark '|')
  · obtain ⟨more, rfl⟩ := List.head?_eq_some_iff.mp hbar
    rw [List.length_cons] at hlt hn
    have harrowMore : .arrow ∉ more := List.not_mem_of_not_mem_cons harrow
    rw [moreMembers_bar, Option.bind_eq_some_iff] at h
    obtain ⟨⟨second, behind⟩, hitem, hmore⟩ := h
    have hsecond := hitems more second behind (by omega) harrowMore hitem
    have hbehind := hsecond.suffix.length_le
    obtain ⟨es, hes, rfl⟩ := ih behind.length (by omega) (by omega)
      (not_arrow_of_suffix harrowMore hsecond.suffix) hsecond hmore rfl
    exact ⟨first :: es, .cons hfirst hes, by simp⟩
  · by_cases hand : ts.head? = some (.mark '&')
    · obtain ⟨more, rfl⟩ := List.head?_eq_some_iff.mp hand
      rw [moreMembers_and] at h
      cases h
    · rw [moreMembers_end _ hbar hand] at h
      cases h
      exact ⟨[first], .single hfirst, by simp⟩

theorem union_derived (hitems : ItemsAreDerived n) (hlt : ts.length < n) (harrow : .arrow ∉ ts)
    (h : (union ts).result? = some (e, rest)) : Grammar.IsUnion ts e rest := by
  have members {start : List Token} (hstart : start.length < n) (harrow : .arrow ∉ start)
      (hdrop : dropBar ts = start) :
      ∃ es, Grammar.AreMembers start es rest ∧ e = ofMembers es := by
    rw [union_result, hdrop, Option.bind_eq_some_iff] at h
    obtain ⟨⟨first, behind⟩, hitem, hmore⟩ := h
    have hfirst := hitems start first behind hstart harrow hitem
    have hbehind := hfirst.suffix.length_le
    exact members_derived hitems (by omega) (not_arrow_of_suffix harrow hfirst.suffix) hfirst hmore
  by_cases hbar : ts.head? = some (.mark '|')
  · obtain ⟨more, rfl⟩ := List.head?_eq_some_iff.mp hbar
    rw [List.length_cons] at hlt
    obtain ⟨es, hes, rfl⟩ := members (by omega) (List.not_mem_of_not_mem_cons harrow) rfl
    exact .barred hes
  · obtain ⟨es, hes, rfl⟩ := members hlt harrow (dropBar_of_ne hbar)
    exact .plain hes

/-- Types are read one after the other up to the closing mark. -/
theorem listed_derived (hitems : ItemsAreDerived n) {closing : Char}
    {build : List TypeExpr → TypeExpr} (hlt : ts.length < n) (harrow : .arrow ∉ ts)
    (h : (listed closing build before ts).result? = some (e, rest)) :
    ∃ es, Grammar.AreListed ts es (.mark closing :: rest) ∧ e = build (before.reverse ++ es) := by
  induction hn : ts.length using Nat.strongRecOn generalizing ts before with
  | ind m ih =>
  rw [listed_result, Option.bind_eq_some_iff] at h
  obtain ⟨⟨first, behind⟩, hunion, hbehind⟩ := h
  have hfirst := union_derived hitems hlt harrow hunion
  dsimp only at hbehind
  split at hbehind
  · next c more =>
    have hlength := hfirst.suffix.length_le
    rw [List.length_cons] at hlength
    have harrowMore : .arrow ∉ more :=
      not_arrow_of_suffix harrow ((List.suffix_cons _ _).trans hfirst.suffix)
    split at hbehind
    · next hcomma =>
      subst hcomma
      obtain ⟨es, hes, rfl⟩ := ih more.length (by omega) (by omega) harrowMore hbehind rfl
      exact ⟨first :: es, .cons hfirst hes, by simp⟩
    · split at hbehind
      · next hclosing =>
        subst hclosing
        cases hbehind
        exact ⟨[first], .single hfirst, by simp⟩
      · cases hbehind
  · cases hbehind

theorem brackets_derived (h : Grammar.IsItem start e ts) :
    Grammar.IsItem start (brackets e ts).1 (brackets e ts).2 := by
  fun_induction brackets e ts with
  | case1 e ts ih => exact ih (.array h)
  | case2 => exact h

/-- What follows a name is read as its arguments, or not at all. -/
theorem name_derived (hitems : ItemsAreDerived n) {name : String} (hname : name ∉ reservedWords)
    (hlt : ts.length < n) (harrow : .arrow ∉ ts)
    (h : (primary (.word name :: ts)).result? = some (e, rest)) :
    Grammar.IsPrimary (.word name :: ts) e rest := by
  rw [primary_word hname] at h
  split at h
  · cases h
  · next full more hqualify =>
    have hlength := arguments_length hqualify
    have harguments (hsuffix : .mark '<' :: more <:+ ts) :
        ∃ es, Grammar.AreListed more es (.mark '>' :: rest) ∧ e = .generic full es := by
      have hmore := (List.suffix_cons _ _).trans hsuffix
      have hshorter := hsuffix.length_le
      rw [List.length_cons] at hshorter
      exact listed_derived hitems (by omega) (not_arrow_of_suffix harrow hmore) h
    obtain ⟨parts, rfl, rfl | ⟨_, rfl⟩⟩ := pointed_of_qualify hqualify
    · obtain ⟨es, hes, rfl⟩ := harguments (List.suffix_append _ _)
      exact .generic hname parts hes
    · obtain ⟨es, hes, rfl⟩ := harguments ((List.suffix_cons _ _).trans (List.suffix_append _ _))
      exact .pointed hname parts hes
  · next full behind hangle hqualify =>
    cases h
    obtain ⟨parts, rfl, rfl | ⟨hnext, rfl⟩⟩ := pointed_of_qualify hqualify
    · exact .named hname parts _
    · obtain ⟨more, rfl⟩ := List.head?_eq_some_iff.mp hnext
      exact absurd rfl (hangle more)

theorem word_derived (hitems : ItemsAreDerived n) {name : String} (hlt : ts.length < n)
    (harrow : .arrow ∉ ts) (h : (primary (.word name :: ts)).result? = some (e, rest)) :
    Grammar.IsPrimary (.word name :: ts) e rest := by
  by_cases hboolean : name = "true" ∨ name = "false"
  · rw [primary_boolean hboolean] at h
    cases h
    exact .boolean hboolean _
  · by_cases hoperator : isOperatorWord name = true
    · rw [primary_operator hoperator] at h
      cases h
    · by_cases hreadonly : name = "readonly"
      · subst hreadonly
        rw [primary_readonly] at h
        exact .readonly (hitems ts e rest hlt harrow h)
      · have hname : name ∉ reservedWords := by
          simp_all [reservedWords, isOperatorWord]
        exact name_derived hitems hname hlt harrow h

/-- An opening bracket begins a tuple. -/
theorem bracket_derived (hitems : ItemsAreDerived n) (hlt : ts.length < n) (harrow : .arrow ∉ ts)
    (h : (primary (.mark '[' :: ts)).result? = some (e, rest)) :
    Grammar.IsPrimary (.mark '[' :: ts) e rest := by
  by_cases hclosing : ts.head? = some (.mark ']')
  · obtain ⟨more, rfl⟩ := List.head?_eq_some_iff.mp hclosing
    rw [primary_emptyTuple] at h
    cases h
    exact .emptyTuple _
  · rw [primary_bracket hclosing] at h
    obtain ⟨es, hes, rfl⟩ := listed_derived hitems hlt harrow h
    exact .tuple hes

theorem not_arrow_behind (harrow : .arrow ∉ ts) (result : List Token) :
    afterClosing? '(' ')' 0 ts ≠ some (.arrow :: result) := by
  intro h
  obtain ⟨front, rfl, _⟩ := (afterClosing?_eq_some_iff (by decide)).mp h
  exact harrow (by simp)

/-- Without an arrow, an opening parenthesis begins no function type. -/
theorem paren_derived (hitems : ItemsAreDerived n) (hlt : ts.length < n) (harrow : .arrow ∉ ts)
    (h : (primary (.mark '(' :: ts)).result? = some (e, rest)) :
    Grammar.IsPrimary (.mark '(' :: ts) e rest := by
  rw [primary_paren (not_arrow_behind harrow), Option.bind_eq_some_iff] at h
  obtain ⟨⟨inner, behind⟩, hunion, hclose⟩ := h
  have hinner := union_derived hitems hlt harrow hunion
  dsimp only at hclose
  unfold close at hclose
  split at hclose
  · next c more =>
    split at hclose
    · next hc =>
      subst hc
      cases hclose
      exact .enclosed hinner
    · cases hclose
  · cases hclose

theorem endsMarker_iff :
    endsMarker ts = true ↔ ∀ t ∈ ts.head?, t = .mark '=' ∨ t = .mark '|' := by
  cases ts <;> simp [endsMarker]

theorem marker_derived (hitems : ItemsAreDerived n) {c : Char} (hc : c = '?' ∨ c = '!')
    (hlt : ts.length < n) (harrow : .arrow ∉ ts)
    (h : (primary (.mark c :: ts)).result? = some (e, rest)) :
    Grammar.IsPrimary (.mark c :: ts) e rest := by
  rw [primary_marker hc] at h
  split at h
  · next hends =>
    cases h
    exact .untold hc (endsMarker_iff.mp hends)
  · exact .marked hc (hitems ts e rest hlt harrow h)

theorem mark_derived (hitems : ItemsAreDerived n) {c : Char} (hlt : ts.length < n)
    (harrow : .arrow ∉ ts) (h : (primary (.mark c :: ts)).result? = some (e, rest)) :
    Grammar.IsPrimary (.mark c :: ts) e rest := by
  by_cases hc : c ∈ ['(', '[', '{', '*', '?', '!']
  · simp only [List.mem_cons, List.not_mem_nil, or_false] at hc
    rcases hc with rfl | rfl | rfl | rfl | hc
    · exact paren_derived hitems hlt harrow h
    · exact bracket_derived hitems hlt harrow h
    · rw [primary_brace, Option.map_eq_some_iff] at h
      obtain ⟨behind, hbehind, heq⟩ := h
      cases heq
      obtain ⟨front, rfl, hcloses⟩ := (afterClosing?_eq_some_iff (by decide)).mp hbehind
      exact .object (isBraced_cons.mpr hcloses) _
    · rw [primary_star] at h
      cases h
      exact .star _
    · exact marker_derived hitems hc hlt harrow h
  · rw [primary_mark hc] at h
    cases h

theorem primary_derived (hitems : ItemsAreDerived ts.length) (harrow : .arrow ∉ ts)
    (h : (primary ts).result? = some (e, rest)) : Grammar.IsPrimary ts e rest := by
  cases ts with
  | nil =>
    rw [primary_nil] at h
    cases h
  | cons t ts =>
    have hlt : ts.length < (t :: ts).length := Nat.lt_succ_self _
    have harrowBehind : .arrow ∉ ts := List.not_mem_of_not_mem_cons harrow
    cases t with
    | word name => exact word_derived hitems hlt harrowBehind h
    | mark c => exact mark_derived hitems hlt harrowBehind h
    | number =>
      rw [primary_number] at h
      cases h
      exact .number _
    | string =>
      rw [primary_string] at h
      cases h
      exact .string _
    | ellipsis =>
      rw [primary_ellipsis] at h
      cases h
    | arrow => exact absurd List.mem_cons_self harrow

/-- What is read as an item is derived, by induction on the number of tokens. -/
theorem itemsAreDerived (n : Nat) : ItemsAreDerived n := by
  induction n with
  | zero => exact fun ts e rest hlt => absurd hlt (Nat.not_lt_zero _)
  | succ n ih =>
    intro ts e rest hlt harrow h
    rw [item_result, Option.map_eq_some_iff] at h
    obtain ⟨⟨first, behind⟩, hprimary, heq⟩ := h
    have hshorter : ItemsAreDerived ts.length := by
      intro us f behind hus
      exact ih us f behind (by omega)
    have hitem := brackets_derived (.primary (primary_derived hshorter harrow hprimary))
    dsimp only at heq
    rwa [heq] at hitem

-- ════════════════════════════════════════════════════════════════════════
-- What is derived is read
-- ════════════════════════════════════════════════════════════════════════

theorem brackets_brackets (e : TypeExpr) (ts : List Token) :
    brackets (brackets e ts).1 (brackets e ts).2 = brackets e ts := by
  fun_induction brackets e ts with
  | case1 e ts ih => exact ih
  | case2 e ts hnext =>
    rw [brackets]
    exact hnext

theorem item_of_primary (h : (primary ts).result? = some (e, rest)) :
    (item ts).result? = some (brackets e rest) := by
  rw [item_result, h, Option.map_some]

/-- A type that is read as an item where a primary type is tried has taken up its brackets. -/
theorem item_of_primary_item {us : List Token} (hprimary : (primary ts).result? = (item us).result?)
    (h : (item us).result? = some (brackets e rest)) :
    (item ts).result? = some (brackets e rest) := by
  rw [item_result, hprimary, h, Option.map_some]
  exact congrArg some (brackets_brackets e rest)

theorem item_of_endsMarker (h : endsMarker ts = true) : (item ts).result? = none := by
  rw [endsMarker_iff] at h
  cases ts with
  | nil => rw [item_result, primary_nil, Option.map_none]
  | cons t ts =>
    rcases h t rfl with rfl | rfl
    all_goals rw [item_result, primary_mark (by decide), Option.map_none]

/-- Tokens that are read as a list of types do not begin with the mark that ends the empty one. -/
theorem primary_tuple (h : (listed ']' .tuple [] ts).result? = some (e, rest)) :
    (primary (.mark '[' :: ts)).result? = some (e, rest) := by
  by_cases hclosing : ts.head? = some (.mark ']')
  · obtain ⟨more, rfl⟩ := List.head?_eq_some_iff.mp hclosing
    rw [listed_result, union_result, dropBar_of_ne (by simp), item_result,
      primary_mark (by decide)] at h
    cases h
  · rw [primary_bracket hclosing]
    exact h

-- By induction on the derivation. A level reads as far as it can, so what stands behind the derived
-- tokens must not go on with them; for an item that is all but brackets, which it may take in.
mutual

theorem read_union {ts rest : List Token} {e : TypeExpr} :
    Grammar.IsUnion ts e rest → .arrow ∉ ts → NotNext unionGoesOn rest →
      (union ts).result? = some (e, rest)
  | .plain h, harrow, hrest => by
    obtain ⟨first, behind, hitem, hmore⟩ := read_members h harrow hrest []
    have hbar : ts.head? ≠ some (.mark '|') := by
      rintro hbar
      obtain ⟨more, rfl⟩ := List.head?_eq_some_iff.mp hbar
      rw [item_result, primary_mark (by decide)] at hitem
      cases hitem
    rw [union_result, dropBar_of_ne hbar, hitem, Option.bind_some]
    exact hmore
  | .barred h, harrow, hrest => by
    obtain ⟨first, behind, hitem, hmore⟩ :=
      read_members h (List.not_mem_of_not_mem_cons harrow) hrest []
    rw [union_result, dropBar, hitem, Option.bind_some]
    exact hmore

theorem read_members {ts rest : List Token} {es : List TypeExpr} :
    Grammar.AreMembers ts es rest → .arrow ∉ ts → NotNext unionGoesOn rest → ∀ before,
      ∃ e behind, (item ts).result? = some (e, behind) ∧
        (moreMembers (e :: before) behind).result? = some (ofMembers (before.reverse ++ es), rest)
  | .single (e := e) h, harrow, hrest, before => by
    have hitem := read_item h harrow (hrest.mono (by decide))
    rw [brackets_of_notNext (hrest.mono (by decide))] at hitem
    refine ⟨e, rest, hitem, (moreMembers_of_notNext (e :: before) hrest).trans ?_⟩
    rw [List.reverse_cons]
  | .cons (e := e) h hmore, harrow, hrest, before => by
    have harrowMore := not_arrow_of_suffix harrow ((List.suffix_cons _ _).trans h.suffix)
    have hitem := read_item h harrow (notNext_cons (by decide) _)
    rw [brackets_of_notNext (notNext_cons (by decide) _)] at hitem
    obtain ⟨second, behind, hsecond, hmembers⟩ := read_members hmore harrowMore hrest (e :: before)
    refine ⟨e, _, hitem, ?_⟩
    rw [moreMembers_bar, hsecond, Option.bind_some]
    refine hmembers.trans ?_
    rw [List.reverse_cons, List.append_assoc, List.singleton_append]

theorem read_item {ts rest : List Token} {e : TypeExpr} :
    Grammar.IsItem ts e rest → .arrow ∉ ts → NotNext primaryGoesOn rest →
      (item ts).result? = some (brackets e rest)
  | .primary h, harrow, hrest => read_primary h harrow hrest
  | .array h, harrow, _ => by
    have hread := read_item h harrow (notNext_cons (by decide) _)
    rwa [brackets] at hread

theorem read_listed {ts rest : List Token} {es : List TypeExpr} :
    Grammar.AreListed ts es rest → .arrow ∉ ts → ∀ closing more, closing = ']' ∨ closing = '>' →
      rest = .mark closing :: more → ∀ build before,
        (listed closing build before ts).result? = some (build (before.reverse ++ es), more)
  | .single (e := e) h, harrow, closing, more, hclosing, hrest, build, before => by
    have hends : .mark closing ∉ unionGoesOn ∧ closing ≠ ',' := by
      rcases hclosing with rfl | rfl <;> decide
    have hnext : NotNext unionGoesOn rest := by
      rw [hrest]
      exact notNext_cons hends.1 more
    rw [listed_result, read_union h harrow hnext, Option.bind_some, hrest]
    dsimp only
    rw [if_neg hends.2, if_pos rfl, List.reverse_cons]
  | .cons (e := e) h hmore, harrow, closing, more, hclosing, hrest, build, before => by
    have harrowMore := not_arrow_of_suffix harrow ((List.suffix_cons _ _).trans h.suffix)
    rw [listed_result, read_union h harrow (notNext_cons (by decide) _), Option.bind_some]
    dsimp only
    rw [if_pos rfl, read_listed hmore harrowMore closing more hclosing hrest build (e :: before),
      List.reverse_cons, List.append_assoc, List.singleton_append]

theorem read_primary {ts rest : List Token} {e : TypeExpr} :
    Grammar.IsPrimary ts e rest → .arrow ∉ ts → NotNext primaryGoesOn rest →
      (item ts).result? = some (brackets e rest)
  | .enclosed h, harrow, _ => by
    have harrowInside := List.not_mem_of_not_mem_cons harrow
    refine item_of_primary ?_
    rw [primary_paren (not_arrow_behind harrowInside),
      read_union h harrowInside (notNext_cons (by decide) _)]
    rfl
  | .emptyTuple rest, _, _ => item_of_primary (primary_emptyTuple rest)
  | .tuple h, harrow, _ => by
    have hread := read_listed h (List.not_mem_of_not_mem_cons harrow) ']' _ (.inl rfl) rfl .tuple []
    exact item_of_primary (primary_tuple hread)
  | .object h rest, _, _ => by
    obtain ⟨inside, rfl⟩ := List.head?_eq_some_iff.mp h.opens
    have hclosed : afterClosing? '{' '}' 0 (inside ++ rest) = some rest :=
      (afterClosing?_eq_some_iff (by decide)).mpr ⟨inside, rfl, isBraced_cons.mp h⟩
    refine item_of_primary ?_
    rw [List.cons_append, primary_brace, hclosed, Option.map_some]
  | .star rest, _, _ => item_of_primary (primary_star rest)
  | .marked hc h, harrow, hrest => by
    have hread := read_item h (List.not_mem_of_not_mem_cons harrow) hrest
    refine item_of_primary_item ?_ hread
    rw [primary_marker hc, if_neg]
    intro hends
    rw [item_of_endsMarker hends] at hread
    cases hread
  | .untold hc hnext, _, _ => by
    refine item_of_primary ?_
    rw [primary_marker hc, if_pos (endsMarker_iff.mpr hnext)]
  | .string rest, _, _ => item_of_primary (primary_string rest)
  | .number rest, _, _ => item_of_primary (primary_number rest)
  | .boolean h rest, _, _ => item_of_primary (primary_boolean h rest)
  | .readonly h, harrow, hrest =>
    item_of_primary_item (primary_readonly _)
      (read_item h (List.not_mem_of_not_mem_cons harrow) hrest)
  | .named h parts rest, _, hrest => by
    have hpoint : rest.head? ≠ some (.mark '.') := fun hhead => hrest _ hhead (by decide)
    refine item_of_primary ?_
    rw [Grammar.nameTokens, List.cons_append, primary_word h, qualify_pointed,
      qualify_of_notNext _ hpoint]
    split
    · next heq => cases heq
    · next heq =>
      cases heq
      exact absurd (by decide) (hrest _ rfl)
    · next heq =>
      cases heq
      rfl
  | .generic h parts hes, harrow, _ => by
    have harrowInside :=
      not_arrow_of_suffix harrow ((List.suffix_cons _ _).trans (List.suffix_append _ _))
    refine item_of_primary ?_
    rw [Grammar.nameTokens, List.cons_append, primary_word h, qualify_pointed,
      qualify_of_notNext _ (by simp)]
    exact read_listed hes harrowInside '>' _ (.inr rfl) rfl (.generic _) []
  | .pointed h parts hes, harrow, _ => by
    have harrowInside :=
      not_arrow_of_suffix harrow ((List.suffix_append [_, _] _).trans (List.suffix_append _ _))
    refine item_of_primary ?_
    rw [Grammar.nameTokens, List.cons_append, primary_word h, qualify_pointed]
    exact read_listed hes harrowInside '>' _ (.inr rfl) rfl (.generic _) []

end

-- ════════════════════════════════════════════════════════════════════════
-- All tokens together
-- ════════════════════════════════════════════════════════════════════════

theorem union_derived_of_result (harrow : .arrow ∉ ts) (h : (union ts).result? = some (e, rest)) :
    Grammar.IsUnion ts e rest :=
  union_derived (itemsAreDerived _) (Nat.lt_succ_self _) harrow h

/-- No union begins with an ellipsis. -/
theorem not_isUnion_ellipsis (harrow : .arrow ∉ ts) (hrest : NotNext unionGoesOn rest) :
    ¬ Grammar.IsUnion (.ellipsis :: ts) e rest := by
  intro h
  have hread := read_union h (by simpa using harrow) hrest
  rw [union_result, dropBar_of_ne (by simp), item_result, primary_ellipsis] at hread
  cases hread

theorem whole?_ellipsis_iff (harrow : .arrow ∉ ts) :
    whole? (.ellipsis :: ts) = some e ↔ Grammar.IsWhole (.ellipsis :: ts) e := by
  rw [whole?_ellipsis, Option.bind_eq_some_iff]
  constructor
  · rintro ⟨⟨inner, rest⟩, hunion, hwhole⟩
    dsimp only at hwhole
    split at hwhole
    · next hrest =>
      subst hrest
      cases hwhole
      exact .variadic (union_derived_of_result harrow hunion)
    · cases hwhole
  · intro h
    cases h with
    | plain h => exact absurd h (not_isUnion_ellipsis harrow nofun)
    | optional h => exact absurd h (not_isUnion_ellipsis harrow (notNext_cons (by decide) _))
    | variadic h => exact ⟨_, read_union h harrow nofun, rfl⟩

theorem whole?_eq_some_iff (harrow : .arrow ∉ ts) :
    whole? ts = some e ↔ Grammar.IsWhole ts e := by
  by_cases hellipsis : ts.head? = some .ellipsis
  · obtain ⟨inner, rfl⟩ := List.head?_eq_some_iff.mp hellipsis
    exact whole?_ellipsis_iff (List.not_mem_of_not_mem_cons harrow)
  · rw [whole?_result hellipsis, Option.bind_eq_some_iff]
    constructor
    · rintro ⟨⟨inner, rest⟩, hunion, hwhole⟩
      have hinner := union_derived_of_result harrow hunion
      dsimp only at hwhole
      split at hwhole
      · next hrest =>
        subst hrest
        cases hwhole
        exact .plain hinner
      · split at hwhole
        · next hrest =>
          subst hrest
          cases hwhole
          exact .optional hinner
        · cases hwhole
    · intro h
      cases h with
      | plain h => exact ⟨_, read_union h harrow nofun, rfl⟩
      | optional h => exact ⟨_, read_union h harrow (notNext_cons (by decide) _), rfl⟩
      | variadic _ => exact absurd rfl hellipsis

end Parser

/-- Tokens without an arrow are read exactly as the grammar derives a type from them: text with these
tokens is parsed as that type, and kept as it stands if the grammar derives none. -/
theorem accepts_iff_isWhole {ts : List Token} (harrow : .arrow ∉ ts) :
    (∀ e, Parser.whole? ts = some e ↔ Grammar.IsWhole ts e) ∧
      ∀ written, Token.scan? (Text.trim written.toList) = some ts →
        (∀ e, Grammar.IsWhole ts e → parse written = e) ∧
          ((∀ e, ¬ Grammar.IsWhole ts e) →
            parse written = .invalid (String.ofList (Text.trim written.toList))) := by
  refine ⟨fun e => Parser.whole?_eq_some_iff harrow, fun written hscan =>
    ⟨fun e h => ?_, fun h => ?_⟩⟩
  · have hwhole := (Parser.whole?_eq_some_iff harrow).mpr h
    rw [parse, hscan, Option.bind_some, hwhole]
  · have hnone : Parser.whole? ts = none := by
      rw [Option.eq_none_iff_forall_ne_some]
      exact fun e hwhole => h e ((Parser.whole?_eq_some_iff harrow).mp hwhole)
    rw [parse, hscan, Option.bind_some, hnone]

/-- The tokens of `Array.<?number[]>|{(}=`. -/
def optionalTokens : List Token :=
  [.word "Array", .mark '.', .mark '<', .mark '?', .word "number", .mark '[', .mark ']', .mark '>',
    .mark '|', .mark '{', .mark '(', .mark '}', .mark '=']

theorem isWhole_optionalTokens :
    Grammar.IsWhole optionalTokens
      (.optional (.union [.generic "Array" [.array (.named "number")], .object])) := by
  have hnumber : Grammar.IsItem [.word "number", .mark '[', .mark ']', .mark '>', .mark '|',
      .mark '{', .mark '(', .mark '}', .mark '='] (.array (.named "number"))
      [.mark '>', .mark '|', .mark '{', .mark '(', .mark '}', .mark '='] :=
    .array (.primary (.named (by decide) [] _))
  have harray : "Array" ∉ reservedWords := by decide
  have hgeneric := Grammar.IsPrimary.pointed harray []
    (.single (.plain (.single (.primary (.marked (.inl rfl) hnumber)))))
  have hbraced : Grammar.IsBraced [.mark '{', .mark '(', .mark '}'] := by
    have hclosing : Parser.afterClosing? '{' '}' 0 [.mark '(', .mark '}'] = some [] := rfl
    obtain ⟨front, hfront, hcloses⟩ := (Parser.afterClosing?_eq_some_iff (by decide)).mp hclosing
    rw [List.append_nil] at hfront
    exact Parser.isBraced_cons.mpr (hfront ▸ hcloses)
  exact .optional (.plain (.cons (.primary hgeneric) (.single (.primary (.object hbraced _)))))

theorem parse_optionalTokens :
    .arrow ∉ optionalTokens ∧ Grammar.IsWhole optionalTokens
        (.optional (.union [.generic "Array" [.array (.named "number")], .object])) ∧
      parse " Array.<?number[]> | { ( } = " =
        .optional (.union [.generic "Array" [.array (.named "number")], .object]) := by
  have harrow : .arrow ∉ optionalTokens := by decide
  have hscan : Token.scan? (Text.trim " Array.<?number[]> | { ( } = ".toList) =
      some optionalTokens := by
    decide +kernel
  exact ⟨harrow, isWhole_optionalTokens,
    ((accepts_iff_isWhole harrow).2 _ hscan).1 _ isWhole_optionalTokens⟩

end CustomFunctions.TypeExpr
