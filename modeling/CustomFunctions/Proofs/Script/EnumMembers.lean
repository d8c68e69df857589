import CustomFunctions.Proofs.Number.Integers
import CustomFunctions.Script.Declarations

/-!
# Numbers of enum members

A member of an enum without an initial value counts on from the nearest member before it that has one:
behind an integer it has the next integers, behind anything else it has no value, and without such a
member it has its index. What counting has reached at a member is found by induction on the items
before it.

## Main definitions

- `EnumItem.HasValue` — the value of a member, by the items before it
- `EnumItem.lastDoc?` — the doc comment of a member, by the items before it
- `EnumItem.members_counted` — the members of an enum have these values and doc comments
-/

namespace CustomFunctions.Script.EnumItem

-- ════════════════════════════════════════════════════════════════════════
-- What the items before a member say
-- ════════════════════════════════════════════════════════════════════════

def isMember : EnumItem → Bool
  | member _ _ => true
  | comment _ => false

/-- The number of members among items. -/
def memberCount (items : List EnumItem) : Nat :=
  items.countP isMember

/-- No member among the items has an initial value. -/
def AreUnset (items : List EnumItem) : Prop :=
  ∀ name tree, .member name (some tree) ∉ items

/-- The comments behind the last member, given the ones before the items. -/
def openComments (before : List Comment) : List EnumItem → List Comment
  | [] => before
  | comment c :: rest => openComments (before ++ [c]) rest
  | member _ _ :: rest => openComments [] rest

/-- The last doc comment behind the last member. -/
def lastDoc? (items : List EnumItem) : Option DocComment :=
  (((openComments [] items).filter Comment.isDoc).getLast?).map Comment.doc

/-- The value of a member with the given initial value behind the given items. -/
inductive HasValue (front : List EnumItem) : Option Tree → Option Literal → Prop
  /-- A literal is the value; an initial value that is not constant leaves the member without one. -/
  | written (tree : Tree) : HasValue front (some tree) tree.constant?
  | counted (h : AreUnset front) :
      HasValue front none (some (.number (.ofInt (memberCount front))))
  | behindNumber {before between : List EnumItem} {name : String} {tree : Tree} {x : Binary64}
      {v : Int} (hfront : front = before ++ .member name (some tree) :: between)
      (hbetween : AreUnset between) (hx : tree.constant? = some (.number x))
      (hv : x.toInt? = some v) :
      HasValue front none (some (.number (.ofInt (v + (memberCount between + 1 : Nat)))))
  | behindOther {before between : List EnumItem} {name : String} {tree : Tree}
      (hfront : front = before ++ .member name (some tree) :: between) (hbetween : AreUnset between)
      (hx : ∀ x, tree.constant? ≠ some (.number x)) : HasValue front none none

/-- The numbers that are written are integers, and by the number of members no count gets from them,
or from zero, beyond 53 bits. -/
structure AreSmall (items : List EnumItem) : Prop where
  few : memberCount items < 2 ^ 53
  small : ∀ name tree x, .member name (some tree) ∈ items → tree.constant? = some (.number x) →
    ∃ v : Int, x.toInt? = some v ∧ v.natAbs + memberCount items < 2 ^ 53

variable {items front back between : List EnumItem} {doc : Option DocComment}
  {next : Option Binary64}

@[simp]
theorem memberCount_comment (c : Comment) (items : List EnumItem) :
    memberCount (comment c :: items) = memberCount items :=
  List.countP_cons_of_neg Bool.false_ne_true

@[simp]
theorem memberCount_member (name : String) (initializer : Option Tree) (items : List EnumItem) :
    memberCount (member name initializer :: items) = memberCount items + 1 :=
  List.countP_cons_of_pos rfl

@[simp]
theorem memberCount_append (items items' : List EnumItem) :
    memberCount (items ++ items') = memberCount items + memberCount items' :=
  List.countP_append

theorem AreUnset.of_cons {item : EnumItem} (h : AreUnset (item :: items)) : AreUnset items :=
  fun name tree hmem => h name tree (List.mem_cons_of_mem _ hmem)

/-- Either no initial value is written, or there is a last one. -/
theorem areUnset_or_exists_last (items : List EnumItem) :
    AreUnset items ∨ ∃ before name tree between,
      items = before ++ .member name (some tree) :: between ∧ AreUnset between := by
  induction items with
  | nil => exact .inl fun _ _ => List.not_mem_nil
  | cons item items ih =>
    rcases ih with hunset | ⟨before, name, tree, between, rfl, hbetween⟩
    · by_cases h : ∃ name tree, item = .member name (some tree)
      · obtain ⟨name, tree, rfl⟩ := h
        exact .inr ⟨[], name, tree, items, rfl, hunset⟩
      · refine .inl fun name tree hmem => ?_
        rcases List.mem_cons.mp hmem with rfl | hmem
        · exact h ⟨name, tree, rfl⟩
        · exact hunset name tree hmem
    · exact .inr ⟨item :: before, name, tree, between, rfl, hbetween⟩

-- ════════════════════════════════════════════════════════════════════════
-- What has been read when a member comes
-- ════════════════════════════════════════════════════════════════════════

/-- The number of the next member without an initial value behind the items. -/
def nextAfter (next : Option Binary64) : List EnumItem → Option Binary64
  | [] => next
  | comment _ :: rest => nextAfter next rest
  | member _ initializer :: rest => nextAfter (nextNumber (value next initializer)) rest

/-- The doc comment that waits for a member behind the items. -/
def docAfter (doc : Option DocComment) : List EnumItem → Option DocComment
  | [] => doc
  | comment c :: rest => docAfter (if c.isDoc then some c.doc else doc) rest
  | member _ _ :: rest => docAfter none rest

theorem membersFrom_length (doc : Option DocComment) (next : Option Binary64)
    (items : List EnumItem) : (membersFrom doc next items).length = memberCount items := by
  induction items generalizing doc next with
  | nil => rfl
  | cons item items ih =>
    cases item with
    | comment c => rw [membersFrom, ih, memberCount_comment]
    | member name initializer => rw [membersFrom, List.length_cons, ih, memberCount_member]

theorem membersFrom_append (doc : Option DocComment) (next : Option Binary64)
    (front back : List EnumItem) :
    membersFrom doc next (front ++ back) =
      membersFrom doc next front ++ membersFrom (docAfter doc front) (nextAfter next front) back := by
  induction front generalizing doc next with
  | nil => rfl
  | cons item front ih =>
    cases item with
    | comment c => exact ih _ _
    | member name initializer => exact congrArg _ (ih _ _)

theorem nextAfter_append (next : Option Binary64) (front back : List EnumItem) :
    nextAfter next (front ++ back) = nextAfter (nextAfter next front) back := by
  induction front generalizing next with
  | nil => rfl
  | cons item front ih =>
    cases item with
    | comment c => exact ih _
    | member name initializer => exact ih _

/-- The doc comment that waits is the last one among the comments behind the last member. -/
theorem docAfter_eq (before : List Comment) (items : List EnumItem)
    (hdoc : doc = ((before.filter Comment.isDoc).getLast?).map Comment.doc) :
    docAfter doc items =
      (((openComments before items).filter Comment.isDoc).getLast?).map Comment.doc := by
  induction items generalizing doc before with
  | nil => exact hdoc
  | cons item items ih =>
    cases item with
    | member name initializer => exact ih _ rfl
    | comment c =>
      refine ih _ ?_
      rw [List.filter_append]
      by_cases hc : c.isDoc = true <;> simp [hc, hdoc]

theorem successor_eq {x : Binary64} {v : Int} (hx : x.toInt? = some v)
    (h : (v + 1).natAbs < 2 ^ 53) : successor x = .ofInt (v + 1) :=
  Binary64.add_ofNat hx one_pos (by decide) h

/-- Members without an initial value count on. -/
theorem nextAfter_of_areUnset {v : Int} (hunset : AreUnset items)
    (h : v.natAbs + memberCount items < 2 ^ 53) :
    nextAfter (some (.ofInt v)) items = some (.ofInt (v + memberCount items)) := by
  induction items generalizing v with
  | nil =>
    rw [nextAfter, memberCount, List.countP_nil, Nat.cast_zero, Int.add_zero]
  | cons item items ih =>
    cases item with
    | comment c =>
      rw [memberCount_comment] at h ⊢
      exact ih hunset.of_cons h
    | member name initializer =>
      rw [memberCount_member] at h ⊢
      cases initializer with
      | some tree => exact absurd List.mem_cons_self (hunset name tree)
      | none =>
        have hnext : nextNumber (value (some (.ofInt v)) none) = some (.ofInt (v + 1)) :=
          congrArg some (successor_eq (Binary64.toInt?_ofInt (by omega)) (by omega))
        rw [nextAfter, hnext, ih hunset.of_cons (by omega)]
        congr 2
        push_cast
        ring

/-- Where counting has stopped, members without an initial value do not resume it. -/
theorem nextAfter_none (hunset : AreUnset items) : nextAfter none items = none := by
  induction items with
  | nil => rfl
  | cons item items ih =>
    cases item with
    | comment c => exact ih hunset.of_cons
    | member name initializer =>
      cases initializer with
      | some tree => exact absurd List.mem_cons_self (hunset name tree)
      | none => exact ih hunset.of_cons

-- ════════════════════════════════════════════════════════════════════════
-- The members of an enum
-- ════════════════════════════════════════════════════════════════════════

theorem AreSmall.hasValue (h : AreSmall items) {name : String} {initializer : Option Tree}
    (hitems : items = front ++ .member name initializer :: back) :
    HasValue front initializer (value (nextAfter (some (.ofNat 0)) front) initializer) := by
  cases initializer with
  | some tree => exact .written tree
  | none =>
    have hcount : memberCount items = memberCount front + (memberCount back + 1) := by
      rw [hitems, memberCount_append, memberCount_member]
    have hfew := h.few
    rcases areUnset_or_exists_last front with hunset | ⟨before, other, tree, between, hfront, hbetween⟩
    · have hnext := nextAfter_of_areUnset (v := 0) hunset (by rw [Int.natAbs_zero]; omega)
      rw [Int.zero_add] at hnext
      have hzero : Binary64.ofNat 0 = .ofInt 0 := rfl
      rw [hzero, hnext]
      exact .counted hunset
    · have hlast : nextAfter (some (.ofNat 0)) front =
          nextAfter (nextNumber tree.constant?) between := by
        rw [hfront, nextAfter_append]
        rfl
      rw [hlast]
      by_cases hnumber : ∃ x, tree.constant? = some (.number x)
      · obtain ⟨x, hx⟩ := hnumber
        have hmem : .member other (some tree) ∈ items := by
          rw [hitems, hfront]
          simp
        obtain ⟨v, hv, hsmall⟩ := h.small other tree x hmem hx
        rw [hfront, memberCount_append, memberCount_member] at hcount
        have hnext : nextNumber tree.constant? = some (.ofInt (v + 1)) := by
          rw [hx, nextNumber, successor_eq hv (by omega)]
        rw [hnext, nextAfter_of_areUnset hbetween (by omega)]
        have hsum : v + 1 + (memberCount between : Int) =
            v + (memberCount between + 1 : Nat) := by
          push_cast
          ring
        rw [hsum]
        exact .behindNumber hfront hbetween hx hv
      · have hnext : nextNumber tree.constant? = none := by
          unfold nextNumber
          split
          · next x hx => exact absurd ⟨x, hx⟩ hnumber
          · rfl
        rw [hnext, nextAfter_none hbetween]
        exact .behindOther hfront hbetween fun x hx => hnumber ⟨x, hx⟩

/-- Each member of an enum, in order, has its name, the value that the items before it give to it and
the last doc comment between it and the member before. -/
theorem members_counted (h : AreSmall items) :
    (members items).length = memberCount items ∧
      ∀ front name initializer back, items = front ++ .member name initializer :: back →
        ∃ value, HasValue front initializer value ∧
          (members items)[memberCount front]? = some { name, value, doc := lastDoc? front } := by
  refine ⟨membersFrom_length _ _ _, fun front name initializer back hitems => ?_⟩
  refine ⟨_, h.hasValue hitems, ?_⟩
  have hdoc : docAfter none front = lastDoc? front := docAfter_eq [] front rfl
  rw [members, hitems, membersFrom_append, List.getElem?_append_right, membersFrom_length,
    Nat.sub_self, membersFrom, List.getElem?_cons_zero, hdoc]
  exact (membersFrom_length _ _ _).le

/-- The items of an enum with the members `Dark`, `Middle = -3`, `Light` with a doc comment,
`Name = 'x'` and `Rest`. -/
def shades : List EnumItem :=
  [.member "Dark" none, .member "Middle" (some (.unary ['-'] (.number ['3']))),
    .comment ⟨"/** Full. */".toList, 3⟩, .member "Light" none,
    .member "Name" (some (.string "'x'".toList)), .member "Rest" none]

theorem shades_areSmall : AreSmall shades := by
  refine ⟨by decide, fun name tree x hmem hx => ?_⟩
  have hmiddle : (Tree.unary ['-'] (.number ['3'])).constant? = some (.number (.ofInt (-3))) := by
    decide +kernel
  simp only [shades, List.mem_cons, member.injEq, Option.some.injEq, reduceCtorEq, and_false,
    List.not_mem_nil, or_false, false_or] at hmem
  rcases hmem with ⟨_, rfl⟩ | ⟨_, rfl⟩
  · rw [hmiddle] at hx
    cases hx
    exact ⟨-3, Binary64.toInt?_ofInt (by decide), by decide⟩
  · cases hx

theorem members_counted_light : AreSmall shades ∧
    ∃ value, HasValue (shades.take 3) none value ∧
      (members shades)[2]? = some { name := "Light", value, doc := lastDoc? (shades.take 3) } :=
  ⟨shades_areSmall, (members_counted shades_areSmall).2 _ _ _ _ rfl⟩

end CustomFunctions.Script.EnumItem
