import CustomFunctions.Proofs.TypeExpr.Reading
import CustomFunctions.TypeExpr.Printer

/-!
# Reading the text of a type

The text by which diagnostics show a type is read as the type again, provided that a union which is a
member of a union is put in parentheses. The text is scanned into the tokens of the type, and these
are read as the type.

## Main definitions

- `TypeExpr.IsPlain`, `TypeExpr.IsPrintable` — the types that their texts tell
- `TypeExpr.textWith` — the text of a type, with or without parentheses around unions in unions
- `TypeExpr.tokens` — the tokens of the text with the parentheses
- `TypeExpr.parse_textWith` — the text is read as the type
-/

namespace CustomFunctions.TypeExpr

open Token

-- ════════════════════════════════════════════════════════════════════════
-- Types, their texts and their tokens
-- ════════════════════════════════════════════════════════════════════════

/-- The type is built of names, type arguments, arrays, unions of several types, tuples and objects. -/
inductive IsPlain : TypeExpr → Prop
  | named {name : String} (h : isName name = true) : IsPlain (.named name)
  | generic {name : String} {args : List TypeExpr} (h : isName name = true) (hne : args ≠ [])
      (hargs : ∀ e ∈ args, IsPlain e) : IsPlain (.generic name args)
  | array {element : TypeExpr} (h : IsPlain element) : IsPlain (.array element)
  | union {members : List TypeExpr} (hlength : 2 ≤ members.length)
      (hmembers : ∀ e ∈ members, IsPlain e) : IsPlain (.union members)
  | tuple {members : List TypeExpr} (hmembers : ∀ e ∈ members, IsPlain e) :
      IsPlain (.tuple members)
  | object : IsPlain .object

/-- The type is such a type, or repeated or optional as a whole. -/
inductive IsPrintable : TypeExpr → Prop
  | plain {e : TypeExpr} (h : IsPlain e) : IsPrintable e
  | variadic {inner : TypeExpr} (h : IsPlain inner) : IsPrintable (.variadic inner)
  | optional {inner : TypeExpr} (h : IsPlain inner) : IsPrintable (.optional inner)

def isUnion : TypeExpr → Bool
  | .union _ => true
  | _ => false

mutual

/-- The text of a type; if `enclosing` is set, a union that is a member of a union is put in
parentheses. -/
def textWith (enclosing : Bool) : TypeExpr → String
  | .named name => name
  | .generic name args => name ++ "<" ++ ", ".intercalate (textsWith enclosing false args) ++ ">"
  | .array element =>
    if element.needsParens then "(" ++ textWith enclosing element ++ ")[]"
    else textWith enclosing element ++ "[]"
  | .union members => " | ".intercalate (textsWith enclosing enclosing members)
  | .tuple members => "[" ++ ", ".intercalate (textsWith enclosing false members) ++ "]"
  | .literal kind => literalText kind
  | .object => "\x7b...\x7d"
  | .function => "function"
  | .variadic inner => "..." ++ textWith enclosing inner
  | .optional inner => textWith enclosing inner ++ "="
  | .invalid written => written

/-- The texts of several types; if `enclosed` is set, the unions among them are put in
parentheses. -/
def textsWith (enclosing enclosed : Bool) : List TypeExpr → List String
  | [] => []
  | e :: rest =>
    (if enclosed && e.isUnion then "(" ++ textWith enclosing e ++ ")" else textWith enclosing e) ::
      textsWith enclosing enclosed rest

end

mutual

/-- The tokens of the text of such a plain type, with parentheses around unions in unions. -/
def tokens : TypeExpr → List Token
  | .named name => nameTokens name
  | .generic name args =>
    nameTokens name ++
      .mark '<' :: (List.intercalate [.mark ','] (tokensOfEach false args) ++ [.mark '>'])
  | .array element =>
    (if element.isUnion then .mark '(' :: (tokens element ++ [.mark ')']) else tokens element) ++
      [.mark '[', .mark ']']
  | .union members => List.intercalate [.mark '|'] (tokensOfEach true members)
  | .tuple members =>
    .mark '[' :: (List.intercalate [.mark ','] (tokensOfEach false members) ++ [.mark ']'])
  | .object => [.mark '{', .ellipsis, .mark '}']
  | _ => []

/-- The tokens of several types; if `enclosed` is set, the unions among them are put in
parentheses. -/
def tokensOfEach (enclosed : Bool) : List TypeExpr → List (List Token)
  | [] => []
  | e :: rest =>
    (if enclosed && e.isUnion then .mark '(' :: (tokens e ++ [.mark ')']) else tokens e) ::
      tokensOfEach enclosed rest

end

mutual

/-- Without further parentheses this is the text of the type. -/
theorem textWith_false : ∀ e : TypeExpr, e.textWith false = e.text
  | .named _ | .literal _ | .object | .function | .invalid _ => by rw [textWith, text]
  | .generic _ args => by rw [textWith, text, textsWith_false args]
  | .array element => by rw [textWith, text, textWith_false element]
  | .union members => by rw [textWith, text, textsWith_false members]
  | .tuple members => by rw [textWith, text, textsWith_false members]
  | .variadic inner => by rw [textWith, text, textWith_false inner]
  | .optional inner => by rw [textWith, text, textWith_false inner]

theorem textsWith_false : ∀ es : List TypeExpr, textsWith false false es = texts es
  | [] => rfl
  | e :: rest => by
    rw [textsWith, texts, textWith_false e, textsWith_false rest]
    rfl

end

/-- The text of a type that stands between bars or before array brackets. -/
def itemText (e : TypeExpr) : String :=
  if e.isUnion then "(" ++ e.textWith true ++ ")" else e.textWith true

/-- The tokens of such a type. -/
def itemTokens (e : TypeExpr) : List Token :=
  if e.isUnion then .mark '(' :: (e.tokens ++ [.mark ')']) else e.tokens

theorem textsWith_eq_map (es : List TypeExpr) :
    textsWith true false es = es.map (textWith true) ∧ textsWith true true es = es.map itemText := by
  induction es with
  | nil => exact ⟨rfl, rfl⟩
  | cons e rest ih =>
    rw [textsWith, textsWith, ih.1, ih.2]
    exact ⟨rfl, rfl⟩

theorem tokensOfEach_eq_map (es : List TypeExpr) :
    tokensOfEach false es = es.map tokens ∧ tokensOfEach true es = es.map itemTokens := by
  induction es with
  | nil => exact ⟨rfl, rfl⟩
  | cons e rest ih =>
    rw [tokensOfEach, tokensOfEach, ih.1, ih.2]
    exact ⟨rfl, rfl⟩

theorem IsPlain.needsParens_eq {e : TypeExpr} (h : e.IsPlain) : e.needsParens = e.isUnion := by
  cases h <;> rfl

theorem IsPlain.textWith_array {element : TypeExpr} (h : element.IsPlain) :
    textWith true (.array element) = element.itemText ++ "[]" := by
  rw [textWith, h.needsParens_eq, itemText]
  split
  · show _ ++ (")" ++ "[]") = _
    exact String.append_assoc.symm
  · rfl

theorem tokens_array (element : TypeExpr) :
    tokens (.array element) = element.itemTokens ++ [.mark '[', .mark ']'] := by
  rw [tokens, itemTokens]

/-! ### The characters of a text -/

theorem toList_itemText (e : TypeExpr) :
    e.itemText.toList =
      if e.isUnion then '(' :: ((e.textWith true).toList ++ [')']) else (e.textWith true).toList := by
  rw [itemText]
  split
  · simp
  · rfl

theorem toList_generic (name : String) (args : List TypeExpr) :
    (textWith true (.generic name args)).toList =
      name.toList ++ '<' ::
        (List.intercalate [',', ' '] (args.map fun e => (e.textWith true).toList) ++ ['>']) := by
  rw [textWith, (textsWith_eq_map args).1]
  simp [String.toList_intercalate, Function.comp_def]

theorem toList_union (members : List TypeExpr) :
    (textWith true (.union members)).toList =
      List.intercalate [' ', '|', ' '] (members.map fun e => e.itemText.toList) := by
  rw [textWith, (textsWith_eq_map members).2]
  simp [String.toList_intercalate, Function.comp_def]

theorem toList_tuple (members : List TypeExpr) :
    (textWith true (.tuple members)).toList =
      '[' :: (List.intercalate [',', ' '] (members.map fun e => (e.textWith true).toList) ++ [']']) := by
  rw [textWith, (textsWith_eq_map members).1]
  simp [String.toList_intercalate, Function.comp_def]

-- ════════════════════════════════════════════════════════════════════════
-- The text is scanned into the tokens
-- ════════════════════════════════════════════════════════════════════════

variable {e : TypeExpr}

theorem scansAs_itemText (h : ScansAs (e.textWith true).toList e.tokens) :
    ScansAs e.itemText.toList e.itemTokens := by
  rw [toList_itemText, itemTokens]
  split
  · exact h.enclosed
  · exact h

theorem scansAs_textWith (h : e.IsPlain) : ScansAs (e.textWith true).toList e.tokens := by
  have mark (c : Char) (hc : c ∈ ['(', ')', '[', ']', '{', '}', '<', '>', ',', '|']) : IsMark c :=
    isMark_of_mem c hc
  induction h with
  | named h =>
    rw [textWith, tokens]
    exact scansAs_name h
  | generic h _ _ ih =>
    rw [toList_generic, tokens, (tokensOfEach_eq_map _).1]
    have hargs := (scansAs_commas (forall₂_scansAs ih)).beforeMark (mark '>' (by decide))
    exact (scansAs_name h).aroundMark (mark '<' (by decide)) hargs
  | array h ih =>
    rw [h.textWith_array, tokens_array, String.toList_append]
    exact (scansAs_itemText ih).aroundMark (mark '[' (by decide)) (mark ']' (by decide)).scansAs
  | union _ _ ih =>
    rw [toList_union, tokens, (tokensOfEach_eq_map _).2]
    exact scansAs_bars (forall₂_scansAs fun member hmember => scansAs_itemText (ih member hmember))
  | tuple _ ih =>
    rw [toList_tuple, tokens, (tokensOfEach_eq_map _).1]
    have hmembers := (scansAs_commas (forall₂_scansAs ih)).beforeMark (mark ']' (by decide))
    exact .behindMark (mark '[' (by decide)) hmembers
  | object =>
    rw [textWith, tokens]
    exact .behindMark (mark '{' (by decide)) (.behindEllipsis (mark '}' (by decide)).scansAs)

-- ════════════════════════════════════════════════════════════════════════
-- The tokens are read as the type
-- ════════════════════════════════════════════════════════════════════════

theorem isBalanced_itemTokens (h : Parser.IsBalanced e.tokens) : Parser.IsBalanced e.itemTokens := by
  rw [itemTokens]
  split
  · exact h.enclosed
  · exact h

theorem isBalanced_nameTokens (name : String) : Parser.IsBalanced (nameTokens name) := by
  refine Parser.isBalanced_intercalate (by decide) ?_
  rw [List.forall_mem_map]
  exact fun part _ => Parser.isBalanced_singleton (by simp)

/-- Parentheses in the tokens of a type belong together. -/
theorem isBalanced_tokens (h : e.IsPlain) : Parser.IsBalanced e.tokens := by
  have hcommas {es : List TypeExpr} (hes : ∀ e ∈ es, Parser.IsBalanced e.tokens) :
      Parser.IsBalanced (List.intercalate [.mark ','] (es.map tokens)) :=
    Parser.isBalanced_intercalate (by decide) (List.forall_mem_map.mpr hes)
  have mark {c : Char} (hc : Token.mark c ∉ [Token.mark '(', .mark ')']) :
      Parser.IsBalanced [.mark c] := Parser.isBalanced_singleton hc
  induction h with
  | named _ =>
    rw [tokens]
    exact isBalanced_nameTokens _
  | generic _ _ _ ih =>
    rw [tokens, (tokensOfEach_eq_map _).1]
    exact (isBalanced_nameTokens _).append
      ((mark (by decide)).append ((hcommas ih).append (mark (by decide))))
  | array _ ih =>
    rw [tokens_array]
    exact (isBalanced_itemTokens ih).append ((mark (by decide)).append (mark (by decide)))
  | union _ _ ih =>
    rw [tokens, (tokensOfEach_eq_map _).2]
    refine Parser.isBalanced_intercalate (by decide) ?_
    rw [List.forall_mem_map]
    exact fun member hmember => isBalanced_itemTokens (ih member hmember)
  | tuple _ ih =>
    rw [tokens, (tokensOfEach_eq_map _).1]
    exact (mark (by decide)).append ((hcommas ih).append (mark (by decide)))
  | object =>
    exact (mark (by decide)).append ((Parser.isBalanced_singleton (by decide)).append (mark (by decide)))

/-- The tokens of a type are read as it, as a union and, in parentheses where that takes them, as an
item. -/
theorem reads_tokens (h : e.IsPlain) :
    Parser.ReadsAsUnion e.tokens e ∧ Parser.ReadsAsItem e.itemTokens e := by
  have of_item {e : TypeExpr} (hitem : Parser.ReadsAsItem e.tokens e) (hunion : e.isUnion = false) :
      Parser.ReadsAsUnion e.tokens e ∧ Parser.ReadsAsItem e.itemTokens e := by
    rw [itemTokens, hunion]
    exact ⟨hitem.union, hitem⟩
  induction h with
  | named h =>
    refine of_item ?_ rfl
    rw [tokens]
    exact Parser.readsAsItem_name h
  | generic h hne _ ih =>
    refine of_item ?_ rfl
    rw [tokens, (tokensOfEach_eq_map _).1]
    refine Parser.readsAsItem_generic h ?_ hne
    rw [List.forall₂_map_left_iff, List.forall₂_same]
    exact fun arg harg => (ih arg harg).1
  | array _ ih =>
    refine of_item ?_ rfl
    rw [tokens_array]
    exact ih.2.array
  | @union members hlength hmembers ih =>
    have hreads : Parser.ReadsAsUnion (tokens (.union members)) (.union members) := by
      have hne : members ≠ [] := by
        rintro rfl
        cases hlength
      have hunion : Parser.ofMembers members = .union members := by
        match members, hlength with
        | _ :: _ :: _, _ => rfl
      rw [tokens, (tokensOfEach_eq_map _).2, ← hunion]
      refine Parser.readsAsUnion_intercalate ?_ hne
      rw [List.forall₂_map_left_iff, List.forall₂_same]
      exact fun member hmember => (ih member hmember).2
    exact ⟨hreads, hreads.enclosed (isBalanced_tokens (.union hlength hmembers))⟩
  | tuple _ ih =>
    refine of_item ?_ rfl
    rw [tokens, (tokensOfEach_eq_map _).1]
    refine Parser.readsAsItem_tuple ?_
    rw [List.forall₂_map_left_iff, List.forall₂_same]
    exact fun member hmember => (ih member hmember).1
  | object =>
    refine of_item ?_ rfl
    rw [tokens]
    exact Parser.readsAsItem_object

-- ════════════════════════════════════════════════════════════════════════
-- The text is read as the type
-- ════════════════════════════════════════════════════════════════════════

theorem isTrimmed_name {name : String} (h : isName name = true) : Text.IsTrimmed name.toList := by
  rw [isName, Bool.and_eq_true, List.all_eq_true] at h
  rw [← intercalate_nameParts]
  refine Text.isTrimmed_intercalate _ (Text.splitOn_ne_nil _ _) fun part hpart => ?_
  have hword := h.1 part hpart
  cases part with
  | nil => cases hword
  | cons c part =>
    obtain ⟨hc, hrest⟩ := isWord_cons.mp hword
    refine Text.isTrimmed_of_no_blank (List.cons_ne_nil c part) ?_
    rw [List.forall_mem_cons]
    exact ⟨isBlank_of_inWord (inWord_of_startsWord hc), fun d hd => isBlank_of_inWord (hrest d hd)⟩

theorem isTrimmed_mark {c : Char} (h : Text.isBlank c = false) : Text.IsTrimmed [c] :=
  Text.isTrimmed_of_no_blank (List.cons_ne_nil c []) (List.forall_mem_singleton.mpr h)

theorem isTrimmed_itemText (h : Text.IsTrimmed (e.textWith true).toList) :
    Text.IsTrimmed e.itemText.toList := by
  rw [toList_itemText]
  split
  · exact (isTrimmed_mark (by decide)).append _ (isTrimmed_mark (by decide))
  · exact h

/-- No blanks stand around the text of a type. -/
theorem isTrimmed_textWith (h : e.IsPlain) : Text.IsTrimmed (e.textWith true).toList := by
  induction h with
  | named h =>
    rw [textWith]
    exact isTrimmed_name h
  | generic h _ _ _ =>
    rw [toList_generic]
    exact (isTrimmed_name h).append ('<' :: _) (isTrimmed_mark (by decide))
  | array h ih =>
    rw [h.textWith_array, String.toList_append]
    exact (isTrimmed_itemText ih).append ['['] (isTrimmed_mark (by decide))
  | @union members hlength _ ih =>
    rw [toList_union]
    refine Text.isTrimmed_intercalate _ ?_ ?_
    · rw [ne_eq, List.map_eq_nil_iff]
      rintro rfl
      cases hlength
    · rw [List.forall_mem_map]
      exact fun member hmember => isTrimmed_itemText (ih member hmember)
  | tuple _ _ =>
    rw [toList_tuple]
    exact (isTrimmed_mark (by decide)).append _ (isTrimmed_mark (by decide))
  | object =>
    rw [textWith]
    exact (isTrimmed_mark (by decide)).append ['.', '.', '.'] (isTrimmed_mark (by decide))

/-- A text without blanks around it is read as what its tokens make up. -/
theorem parse_eq {s : String} {ts : List Token} (htrimmed : Text.IsTrimmed s.toList)
    (hscan : scan? s.toList = some ts) (hread : Parser.whole? ts = some e) : parse s = e := by
  simp only [parse, htrimmed.trim_eq, hscan, Option.bind_some, hread]

theorem parse_plain (h : e.IsPlain) : parse (e.textWith true) = e := by
  refine parse_eq (isTrimmed_textWith h) (scansAs_textWith h).scan?_eq ?_
  have hreads := (reads_tokens h).1
  have hall := hreads [] nofun
  have hhead := hreads.head_ne Parser.primary_ellipsis (by decide) []
  rw [List.append_nil] at hall hhead
  rw [Parser.whole?_result hhead, hall]
  rfl

theorem parse_variadic (h : e.IsPlain) : parse (textWith true (.variadic e)) = .variadic e := by
  have htext : (textWith true (.variadic e)).toList = '.' :: '.' :: '.' :: (e.textWith true).toList := by
    rw [textWith]
    simp
  have htrimmed : Text.IsTrimmed (textWith true (.variadic e)).toList := by
    rw [htext]
    exact (isTrimmed_mark (by decide)).append ['.', '.'] (isTrimmed_textWith h)
  have hscan : scan? (textWith true (.variadic e)).toList = some (.ellipsis :: e.tokens) := by
    rw [htext]
    exact (scansAs_textWith h).behindEllipsis.scan?_eq
  have hall := (reads_tokens h).1 [] nofun
  rw [List.append_nil] at hall
  refine parse_eq htrimmed hscan ?_
  rw [Parser.whole?_ellipsis, hall]
  rfl

theorem parse_optional (h : e.IsPlain) : parse (textWith true (.optional e)) = .optional e := by
  have htext : (textWith true (.optional e)).toList = (e.textWith true).toList ++ ['='] := by
    rw [textWith]
    simp
  have htrimmed : Text.IsTrimmed (textWith true (.optional e)).toList := by
    rw [htext]
    exact (isTrimmed_textWith h).append [] (isTrimmed_mark (by decide))
  have hequals : scan? ['='] = some [.mark '='] := by
    have hnext : next? '=' [] = some (.mark '=', []) := rfl
    rw [scan?_token (by decide) hnext, scan?]
    rfl
  have hscan : scan? (textWith true (.optional e)).toList = some (e.tokens ++ [.mark '=']) := by
    rw [htext, scansAs_textWith h _ (endsWord_cons (by decide +kernel) []), hequals]
    rfl
  have hreads := (reads_tokens h).1
  refine parse_eq htrimmed hscan ?_
  rw [Parser.whole?_result (hreads.head_ne Parser.primary_ellipsis (by decide) _),
    hreads _ (Parser.notNext_cons (by decide) [])]
  rfl

/-- The text of a type is read as the type, once parentheses stand around the unions in unions. -/
theorem parse_textWith (h : e.IsPrintable) :
    e.textWith false = e.text ∧ parse (e.textWith true) = e := by
  refine ⟨textWith_false e, ?_⟩
  cases h with
  | plain h => exact parse_plain h
  | variadic h => exact parse_variadic h
  | optional h => exact parse_optional h

/-- An optional union of an array, a union and type arguments. -/
theorem parse_textWith_nested :
    let e : TypeExpr := .optional (.union [
      .array (.union [.named "Excel.CellValue", .tuple []]),
      .union [.named "größe", .object],
      .generic "Promise" [.union [.named "$a", .array (.array (.named "_"))]]])
    let s := "(Excel.CellValue | [])[] | (größe | \x7b...\x7d) | Promise<$a | _[][]>="
    e.IsPrintable ∧ e.textWith true = s ∧ parse s = e := by
  intro e s
  have hnames : ∀ name ∈ ["Excel.CellValue", "größe", "Promise", "$a", "_"], isName name = true := by
    decide +kernel
  have named (name : String) (hname : name ∈ ["Excel.CellValue", "größe", "Promise", "$a", "_"]) :
      IsPlain (.named name) := .named (hnames name hname)
  have hprintable : e.IsPrintable := by
    refine .optional (.union (by decide) ?_)
    simp only [List.forall_mem_cons, List.not_mem_nil, false_implies, implies_true, and_true]
    refine ⟨.array (.union (by decide) ?_), .union (by decide) ?_,
      .generic (hnames _ (by decide)) (List.cons_ne_nil _ _) ?_⟩
    · simp only [List.forall_mem_cons, List.not_mem_nil, false_implies, implies_true, and_true]
      exact ⟨named _ (by decide), .tuple nofun⟩
    · simp only [List.forall_mem_cons, List.not_mem_nil, false_implies, implies_true, and_true]
      exact ⟨named _ (by decide), .object⟩
    · rw [List.forall_mem_singleton]
      refine .union (by decide) ?_
      simp only [List.forall_mem_cons, List.not_mem_nil, false_implies, implies_true, and_true]
      exact ⟨named _ (by decide), .array (.array (named _ (by decide)))⟩
  have htext : e.textWith true = s := by decide +kernel
  exact ⟨hprintable, htext, htext ▸ (parse_textWith hprintable).2⟩

end CustomFunctions.TypeExpr
