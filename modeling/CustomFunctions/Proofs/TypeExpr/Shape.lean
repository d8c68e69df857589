import CustomFunctions.Proofs.TypeExpr.Acceptance

/-!
# The shape of parsed types

Parsing a text either keeps the text as it stands or yields a type of a fixed shape. The parser reads
such a type at each level and leaves an end of its tokens whether it succeeds or fails, since behind
the arrow of a function type it goes on where an attempt to read the result has stopped. Both are
proved together, along the recursion of the parser.

## Main definitions

- `IsRegular` — the shape of a type inside another one
- `IsParsed` — the shape of a type as a whole
- `Parser.Outcome.IsRegular` — what one attempt reads and leaves
- `parse_isParsed` — the shape of what is parsed
-/

namespace CustomFunctions.TypeExpr

/-- The type is built of names, literals, objects and functions, with type arguments, in arrays,
unions of several types and tuples. -/
inductive IsRegular : TypeExpr → Prop
  | named {name : String} (h : isName name = true) : IsRegular (.named name)
  | generic {name : String} {args : List TypeExpr} (h : isName name = true) (hne : args ≠ [])
      (hargs : ∀ e ∈ args, IsRegular e) : IsRegular (.generic name args)
  | array {element : TypeExpr} (h : IsRegular element) : IsRegular (.array element)
  | union {members : List TypeExpr} (hlength : 2 ≤ members.length)
      (hmembers : ∀ e ∈ members, IsRegular e) : IsRegular (.union members)
  | tuple {members : List TypeExpr} (hmembers : ∀ e ∈ members, IsRegular e) :
      IsRegular (.tuple members)
  | literal (kind : LiteralKind) : IsRegular (.literal kind)
  | object : IsRegular .object
  | function : IsRegular .function

/-- The type is such a type, or repeated or optional as a whole. -/
inductive IsParsed : TypeExpr → Prop
  | regular {e : TypeExpr} (h : IsRegular e) : IsParsed e
  | variadic {inner : TypeExpr} (h : IsRegular inner) : IsParsed (.variadic inner)
  | optional {inner : TypeExpr} (h : IsRegular inner) : IsParsed (.optional inner)

-- ════════════════════════════════════════════════════════════════════════
-- Words
-- ════════════════════════════════════════════════════════════════════════

/-- The words among the tokens are words of a text. -/
def AreScanned (ts : List Token) : Prop :=
  ∀ name, .word name ∈ ts → Token.isWord name.toList = true

variable {ts ts' rest : List Token} {e : TypeExpr} {before : List TypeExpr}

theorem AreScanned.of_suffix (h : AreScanned ts) (hsuffix : ts' <:+ ts) : AreScanned ts' :=
  fun name hname => h name (hsuffix.mem hname)

theorem AreScanned.tail {t : Token} (h : AreScanned (t :: ts)) : AreScanned ts :=
  h.of_suffix (List.suffix_cons t ts)

namespace Token

/-- A word is scanned whole. -/
theorem isWord_of_next? {c : Char} {s behind : List Char} {name : String}
    (h : next? c s = some (.word name, behind)) : isWord name.toList = true := by
  unfold next? at h
  split at h
  · next hc =>
    obtain ⟨⟨⟩, _⟩ := Prod.mk.inj (Option.some.inj h)
    rw [String.toList_ofList, isWord_cons]
    exact ⟨hc, fun d hd => List.mem_takeWhile_imp hd⟩
  · split at h
    · cases h
    · split at h
      · obtain ⟨_, _, hword⟩ := Option.map_eq_some_iff.mp h
        cases hword
      · split at h <;> cases h

theorem scan?_areScanned {s : List Char} (h : scan? s = some ts) : AreScanned ts := by
  fun_induction scan? s generalizing ts with
  | case1 =>
    cases h
    exact fun _ => nofun
  | case2 c s hblank ih => exact ih h
  | case3 c s hblank t behind hnext ih =>
    obtain ⟨more, hmore, rfl⟩ := Option.map_eq_some_iff.mp h
    intro name hname
    rcases List.mem_cons.mp hname with rfl | hname
    · exact isWord_of_next? hnext
    · exact ih hmore name hname
  | case4 => cases h

end Token

/-- No point stands in a word. -/
theorem Token.point_not_mem {s : List Char} (h : isWord s = true) : '.' ∉ s := by
  have hpoint : inWord '.' = false := by decide +kernel
  cases s with
  | nil => exact List.not_mem_nil
  | cons c s =>
    obtain ⟨hc, hs⟩ := isWord_cons.mp h
    intro hmem
    have hword : inWord '.' = true := by
      rcases List.mem_cons.mp hmem with rfl | hmem
      · exact inWord_of_startsWord hc
      · exact hs _ hmem
    rw [hpoint] at hword
    cases hword

/-- Words with points between them are a name unless the first one is reserved. -/
theorem isName_joined {first : String} {parts : List String}
    (hfirst : Token.isWord first.toList = true) (hreserved : first ∉ reservedWords)
    (hparts : ∀ part ∈ parts, Token.isWord part.toList = true) :
    isName (Grammar.joined first parts) = true := by
  have hwords : ∀ s ∈ (first :: parts).map String.toList, Token.isWord s = true := by
    simpa using ⟨hfirst, hparts⟩
  have hname : nameParts (Grammar.joined first parts) = (first :: parts).map String.toList := by
    rw [nameParts, Text.splitOn_eq, Grammar.joined, String.toList_intercalate]
    exact List.splitOn_intercalate _ (fun s hs => Token.point_not_mem (hwords s hs))
      (List.cons_ne_nil _ _)
  rw [isName, hname, Bool.and_eq_true, List.all_eq_true]
  refine ⟨hwords, ?_⟩
  simpa using hreserved

-- ════════════════════════════════════════════════════════════════════════
-- What one attempt reads and leaves
-- ════════════════════════════════════════════════════════════════════════

/-- An attempt on the tokens reads a regular type, if it reads one, and leaves an end of the
tokens. -/
structure Outcome.IsRegular {n : Nat} (o : Outcome n) (ts : List Token) : Prop where
  suffix : o.rest <:+ ts
  regular : ∀ e rest, o.result? = some (e, rest) → e.IsRegular

namespace Outcome

variable {m n : Nat} {o : Outcome n}

theorem isRegular_ok {h : rest.length < n} (he : e.IsRegular) (hrest : rest <:+ ts) :
    (ok e rest h).IsRegular ts := by
  refine ⟨hrest, ?_⟩
  rintro _ _ ⟨⟩
  exact he

theorem isRegular_fail {h : rest.length ≤ n} (hrest : rest <:+ ts) :
    (fail rest h).IsRegular ts :=
  ⟨hrest, nofun⟩

theorem IsRegular.widen (h : o.IsRegular ts) (hle : n ≤ m) : (o.widen hle).IsRegular ts := by
  refine ⟨?_, ?_⟩
  · cases o <;> exact h.suffix
  · rw [result?_widen]
    exact h.regular

theorem IsRegular.behind (h : o.IsRegular ts) (hts : ts <:+ ts') : o.IsRegular ts' :=
  ⟨h.suffix.trans hts, h.regular⟩

end Outcome

namespace Parser

open Outcome

theorem dropBar_suffix (ts : List Token) : dropBar ts <:+ ts := by
  unfold dropBar
  split
  · exact List.suffix_cons _ _
  · exact List.suffix_rfl

theorem afterClosing?_suffix {opening closing : Char} {depth : Nat}
    (h : afterClosing? opening closing depth ts = some rest) : rest <:+ ts := by
  fun_induction afterClosing? opening closing depth ts with
  | case1 => cases h
  | case2 ts =>
    cases h
    exact List.suffix_cons _ _
  | case3 ts depth ih => exact (ih h).trans (List.suffix_cons _ _)
  | case4 depth ts _ ih => exact (ih h).trans (List.suffix_cons _ _)
  | case5 depth t ts _ _ ih => exact (ih h).trans (List.suffix_cons _ _)

theorem qualify_suffix {name : String} {full : Option String}
    (h : qualify name ts = (full, rest)) : rest <:+ ts := by
  fun_induction qualify name ts with
  | case1 name part ts ih => exact (ih h).trans (List.suffix_append [_, _] ts)
  | case2 name ts =>
    cases h
    exact List.suffix_cons _ _
  | case3 | case4 =>
    cases h
    exact List.suffix_rfl

theorem brackets_isRegular (he : e.IsRegular) (ts : List Token) :
    (brackets e ts).1.IsRegular ∧ (brackets e ts).2 <:+ ts := by
  fun_induction brackets e ts with
  | case1 e ts ih =>
    obtain ⟨hregular, hsuffix⟩ := ih (.array he)
    exact ⟨hregular, hsuffix.trans (List.suffix_append [_, _] ts)⟩
  | case2 => exact ⟨he, List.suffix_rfl⟩

theorem ofMembers_isRegular {es : List TypeExpr} (hne : es ≠ []) (hes : ∀ e ∈ es, e.IsRegular) :
    (ofMembers es).IsRegular := by
  match es with
  | [] => exact absurd rfl hne
  | [e] => exact hes e (List.mem_singleton_self e)
  | _ :: _ :: _ => exact .union (by simp) hes

theorem close_isRegular (closing : Char) (he : e.IsRegular) (ts : List Token) :
    (close closing e ts).IsRegular ts := by
  unfold close
  split
  · split
    · exact isRegular_ok he (List.suffix_cons _ _)
    · exact isRegular_fail List.suffix_rfl
  · exact isRegular_fail List.suffix_rfl

/-- A name that the parser reads is one. -/
theorem isName_of_qualify {first full : String} (h : qualify first ts = (some full, rest))
    (hts : AreScanned (.word first :: ts)) (hreserved : first ∉ reservedWords) :
    isName full = true := by
  obtain ⟨parts, rfl, hsplit⟩ := pointed_of_qualify h
  refine isName_joined (hts first List.mem_cons_self) hreserved fun part hpart => ?_
  have hmem : .word part ∈ Grammar.pointed parts :=
    List.mem_flatMap.mpr ⟨part, hpart, by simp⟩
  refine hts part (List.mem_cons_of_mem _ ?_)
  rcases hsplit with rfl | ⟨_, rfl⟩
  all_goals exact List.mem_append_left _ hmem

mutual

theorem union_isRegular (ts : List Token) (hts : AreScanned ts) : (union ts).IsRegular ts := by
  have hitem := item_isRegular (dropBar ts) (hts.of_suffix (dropBar_suffix ts))
  rw [union]
  split
  · next heq =>
    rw [heq] at hitem
    exact isRegular_fail (hitem.suffix.trans (dropBar_suffix ts))
  · next e rest shorter heq =>
    rw [heq] at hitem
    have hrest : rest <:+ ts := hitem.suffix.trans (dropBar_suffix ts)
    have hmore := moreMembers_isRegular [e] rest (hts.of_suffix hrest) (List.cons_ne_nil _ _)
      (by simpa using hitem.regular e rest rfl)
    exact (hmore.behind hrest).widen _
termination_by (ts.length, 3)
decreasing_by
  · have := dropBar_length ts
    rcases Nat.lt_or_eq_of_le this with h | h
    · exact Prod.Lex.left _ _ h
    · rw [h]; exact Prod.Lex.right _ (by decide)
  · exact Prod.Lex.left _ _ (Nat.lt_of_lt_of_le ‹_› (dropBar_length ts))

theorem moreMembers_isRegular (before : List TypeExpr) (ts : List Token) (hts : AreScanned ts)
    (hne : before ≠ []) (hbefore : ∀ e ∈ before, e.IsRegular) :
    (moreMembers before ts).IsRegular ts := by
  rw [moreMembers.eq_def]
  split
  · next rest =>
    have hitem := item_isRegular rest hts.tail
    split
    · next heq =>
      rw [heq] at hitem
      exact isRegular_fail (hitem.suffix.trans (List.suffix_cons _ _))
    · next e behind shorter heq =>
      rw [heq] at hitem
      have hmore := moreMembers_isRegular (e :: before) behind (hts.tail.of_suffix hitem.suffix)
        (List.cons_ne_nil _ _)
        (List.forall_mem_cons.mpr ⟨hitem.regular e behind rfl, hbefore⟩)
      exact (hmore.behind (hitem.suffix.trans (List.suffix_cons _ _))).widen _
  · exact isRegular_fail List.suffix_rfl
  · exact isRegular_ok (ofMembers_isRegular (by simpa using hne) (by simpa using hbefore))
      List.suffix_rfl
termination_by (ts.length, 4)
decreasing_by
  · exact Prod.Lex.left _ _ (by grind)
  · exact Prod.Lex.left _ _ (by grind)

theorem item_isRegular (ts : List Token) (hts : AreScanned ts) : (item ts).IsRegular ts := by
  have hprimary := primary_isRegular ts hts
  rw [item]
  split
  · next heq =>
    rw [heq] at hprimary
    exact isRegular_fail hprimary.suffix
  · next e rest shorter heq =>
    rw [heq] at hprimary
    obtain ⟨hregular, hsuffix⟩ := brackets_isRegular (hprimary.regular e rest rfl) rest
    exact isRegular_ok hregular (hsuffix.trans hprimary.suffix)
termination_by (ts.length, 2)
decreasing_by exact Prod.Lex.right _ (by decide)

theorem listed_isRegular (closing : Char) (build : List TypeExpr → TypeExpr)
    (hbuild : ∀ es, es ≠ [] → (∀ e ∈ es, e.IsRegular) → (build es).IsRegular)
    (before : List TypeExpr) (ts : List Token) (hts : AreScanned ts)
    (hbefore : ∀ e ∈ before, e.IsRegular) : (listed closing build before ts).IsRegular ts := by
  have hunion := union_isRegular ts hts
  rw [listed]
  split
  · next heq =>
    rw [heq] at hunion
    exact isRegular_fail hunion.suffix
  · next e rest shorter heq =>
    rw [heq] at hunion
    have hmembers := List.forall_mem_cons.mpr ⟨hunion.regular e rest rfl, hbefore⟩
    have hsuffix : rest <:+ ts := hunion.suffix
    split
    · next c behind shorter =>
      have hbehind : behind <:+ ts := (List.suffix_cons _ _).trans hsuffix
      split
      · have hmore := listed_isRegular closing build hbuild (e :: before) behind
          (hts.of_suffix hbehind) hmembers
        exact (hmore.behind hbehind).widen _
      · split
        · have hreverse : ∀ e' ∈ (e :: before).reverse, e'.IsRegular :=
            fun e' he' => hmembers e' (List.mem_reverse.mp he')
          exact isRegular_ok (hbuild _ (by simp) hreverse) hbehind
        · exact isRegular_fail hsuffix
    · exact isRegular_fail hsuffix
termination_by (ts.length, 4)
decreasing_by
  · exact Prod.Lex.right _ (by decide)
  · exact Prod.Lex.left _ _ (by grind)

theorem primary_isRegular (ts : List Token) (hts : AreScanned ts) : (primary ts).IsRegular ts := by
  rw [primary.eq_def]
  split
  · exact isRegular_fail List.suffix_rfl
  · next inside =>
    split
    · next result hclosing =>
      -- what is left of the result counts, whether or not it has been read
      have hresult : result <:+ inside :=
        (List.suffix_cons _ _).trans (afterClosing?_suffix hclosing)
      have hunion := union_isRegular result (hts.tail.of_suffix hresult)
      exact isRegular_ok .function ((hunion.suffix.trans hresult).trans (List.suffix_cons _ _))
    · have hunion := union_isRegular inside hts.tail
      split
      · next heq =>
        rw [heq] at hunion
        exact isRegular_fail (hunion.suffix.trans (List.suffix_cons _ _))
      · next e rest shorter heq =>
        rw [heq] at hunion
        have hclose := close_isRegular ')' (hunion.regular e rest rfl) rest
        exact (hclose.behind (hunion.suffix.trans (List.suffix_cons _ _))).widen _
  · exact isRegular_ok (.tuple nofun) (List.suffix_append [_, _] _)
  · next rest _ =>
    have hlisted := listed_isRegular ']' .tuple (fun _ _ => .tuple) [] rest hts.tail nofun
    exact (hlisted.behind (List.suffix_cons _ _)).widen _
  · next inside =>
    split
    · next rest hclosing =>
      exact isRegular_ok .object ((afterClosing?_suffix hclosing).trans (List.suffix_cons _ _))
    · exact isRegular_fail (List.nil_suffix)
  · exact isRegular_ok (.named (by decide +kernel)) (List.suffix_cons _ _)
  · next c rest _ _ _ _ _ =>
    split
    · split
      · exact isRegular_ok (.named (by decide +kernel)) (List.suffix_cons _ _)
      · exact ((item_isRegular rest hts.tail).behind (List.suffix_cons _ _)).widen _
    · exact isRegular_fail List.suffix_rfl
  · exact isRegular_ok (.literal _) (List.suffix_cons _ _)
  · exact isRegular_ok (.literal _) (List.suffix_cons _ _)
  · next name rest =>
    split
    · exact isRegular_ok (.literal _) (List.suffix_cons _ _)
    · next hboolean =>
      split
      · exact isRegular_fail (List.suffix_cons _ _)
      · next hoperator =>
        split
        · exact ((item_isRegular rest hts.tail).behind (List.suffix_cons _ _)).widen _
        · next hreadonly =>
          have hreserved : name ∉ reservedWords := by
            simp only [isOperatorWord, Bool.or_eq_true, decide_eq_true_eq, not_or] at hoperator
            simp only [reservedWords, List.mem_cons, List.not_mem_nil, or_false, not_or]
            tauto
          split
          · next hqualify =>
            exact isRegular_fail ((qualify_suffix hqualify).trans (List.suffix_cons _ _))
          · next full args hqualify =>
            have hname := isName_of_qualify hqualify hts hreserved
            have hargs : args <:+ rest := (List.suffix_cons _ _).trans (qualify_suffix hqualify)
            have hlisted := listed_isRegular '>' (.generic full) (fun _ => .generic hname) [] args
              (hts.tail.of_suffix hargs) nofun
            exact (hlisted.behind (hargs.trans (List.suffix_cons _ _))).widen _
          · next full behind _ hqualify =>
            exact isRegular_ok (.named (isName_of_qualify hqualify hts hreserved))
              ((qualify_suffix hqualify).trans (List.suffix_cons _ _))
  · exact isRegular_fail List.suffix_rfl
  · exact isRegular_fail List.suffix_rfl
termination_by (ts.length, 1)
decreasing_by
  · exact Prod.Lex.left _ _ (by have := afterClosing?_length ‹_›; grind)
  · exact Prod.Lex.left _ _ (by grind)
  · exact Prod.Lex.left _ _ (by grind)
  · exact Prod.Lex.left _ _ (by grind)
  · exact Prod.Lex.left _ _ (by have := qualify_length ‹_›; grind)
  · exact Prod.Lex.left _ _ (by grind)

end

/-- What all the tokens make up has the shape of a type as a whole. -/
theorem whole?_isParsed (hts : AreScanned ts) (h : whole? ts = some e) : e.IsParsed := by
  unfold whole? at h
  split at h
  · next inner =>
    have hunion := union_isRegular inner hts.tail
    split at h
    · next e' _ heq =>
      cases h
      rw [heq] at hunion
      exact .variadic (hunion.regular e' [] rfl)
    · cases h
  · have hunion := union_isRegular ts hts
    split at h
    · next e' rest _ heq =>
      rw [heq] at hunion
      have hregular := hunion.regular e' rest rfl
      split at h
      · cases h
        exact .regular hregular
      · split at h
        · cases h
          exact .optional hregular
        · cases h
    · cases h

end Parser

/-- Parsing a text yields a type of the fixed shape, or else the trimmed text as it stands. -/
theorem parse_isParsed (written : String) :
    parse written = .invalid (String.ofList (Text.trim written.toList)) ∨
      (parse written).IsParsed := by
  rw [parse]
  split
  · next e h =>
    obtain ⟨ts, hscan, hwhole⟩ := Option.bind_eq_some_iff.mp h
    exact .inr (Parser.whole?_isParsed (Token.scan?_areScanned hscan) hwhole)
  · exact .inl rfl

end CustomFunctions.TypeExpr
