import CustomFunctions.Proofs.Script.Returns
import CustomFunctions.Proofs.Script.Rule
import CustomFunctions.Script.Grammar.Expression

/-!
# Expressions hide no return statements

A return statement inside an expression stands in a function or a class. So does every return
statement inside a pattern or an element of markup. Each rule for such phrases keeps this up if the
rules for the phrases inside do.

## Main definitions

- `Goal.Allows` — what is known of the tree of a phrase
- `Grammar.IsSound` — the rules for the phrases inside read what is allowed
-/

namespace CustomFunctions.Script

open CustomFunctions.Script.Tree CustomFunctions.Script.Rule

/-- What is known of the tree of a phrase: statements may hold return statements outside of scopes,
of which the hints tell, and nothing else may. -/
def Goal.Allows : Goal → Tree → Prop
  | .statement => TellsReturns
  | .block => TellsReturns
  | _ => IsQuiet

/-- The rules for the phrases inside read what is allowed. -/
def Grammar.IsSound (g : Grammar) : Prop :=
  ∀ goal, (g.inner goal).Yields goal.Allows

namespace Grammar

variable {g : Grammar} {withIn : Bool}

/-- The substitutions of a template are read by one rule. -/
theorem templateOf_isQuiet {inner : Rule Tree} (hinner : inner.Yields IsQuiet) :
    (templateOf inner).Yields IsQuiet := by
  refine .bind (.spanned (P := AreAll IsQuiet) ?_) fun _ hparts => ?_
  · refine .after fun _ => .after fun _ => .bind (.many (P := IsQuiet) ?_) fun _ hparts => ?_
    · refine .after fun _ => .after fun _ => .after fun _ => ?_
      exact hinner.bind fun _ he => .after fun _ => .after fun _ => .pure he
    · exact .after fun _ => .pure hparts
  · exact .after fun _ => .after fun _ => .pure (isQuiet_of_returnsAll rfl hparts)

section

variable (h : g.IsSound)

include h

/-! ## Names and patterns -/

theorem template_isQuiet : g.template.Yields IsQuiet :=
  templateOf_isQuiet (h (.expressions true))

theorem propertyName_areQuiet : g.propertyName.Yields (AreAll IsQuiet) := by
  refine .oneOf_cons ?_ <| .oneOf_cons ?_ <| .oneOf_cons ?_ <| .oneOf_cons ?_ <|
    .oneOf_cons ?_ .never
  · exact .after fun _ => .pure .nil
  · exact .after fun _ => .pure .nil
  · exact .after fun _ => .pure .nil
  · refine .after fun _ => .bind (h (.expression true)) fun _ he => ?_
    exact .after fun _ => .pure (.singleton he)
  · exact .after fun _ => .pure .nil

theorem initializer_isQuiet : (g.initializer withIn).Yields IsQuiet :=
  .after fun _ => h (.expression withIn)

theorem patternWithDefault_areQuiet : g.patternWithDefault.Yields (AreAll IsQuiet) :=
  .bind (h .pattern) fun _ hp =>
    .bind (initializer_isQuiet h).optional fun _ hvalue => .pure (.cons hp (.toList hvalue))

theorem restPattern_areQuiet : g.restPattern.Yields (AreAll IsQuiet) :=
  .after fun _ => .bind (h .pattern) fun _ hp => .pure (.singleton hp)

theorem memberPattern_areQuiet : g.memberPattern.Yields (AreAll IsQuiet) := by
  refine .oneOf_cons (restPattern_areQuiet h) <| .oneOf_cons ?_ <| .oneOf_cons ?_ .never
  · refine .bind (propertyName_areQuiet h) fun _ hname => .after fun _ => ?_
    exact .bind (patternWithDefault_areQuiet h) fun _ hp => .pure (.append hname hp)
  · refine .after fun _ => ?_
    exact .bind (initializer_isQuiet h).optional fun _ hvalue => .pure (.toList hvalue)

theorem pattern_isQuiet : g.pattern.Yields IsQuiet := by
  refine .oneOf_cons ?_ <| .oneOf_cons ?_ <| .oneOf_cons ?_ .never
  · refine .after fun _ => .bind (.sparseList (P := AreAll IsQuiet) ?_) fun _ hparts => ?_
    · exact .oneOf_cons (restPattern_areQuiet h) <|
        .oneOf_cons (patternWithDefault_areQuiet h) .never
    · exact .after fun _ => .pure (isQuiet_other (.flatten hparts))
  · refine .after fun _ => .bind (memberPattern_areQuiet h).sparseList fun _ hparts => ?_
    exact .after fun _ => .pure (isQuiet_other (.flatten hparts))
  · refine .after fun _ => .after fun _ => .bind (.many (P := AreAll IsQuiet) ?_) fun _ hparts => ?_
    · refine .oneOf_cons ?_ <| .oneOf_cons ?_ .never
      · exact .after fun _ => .after fun _ => .pure .nil
      · refine .after fun _ => .bind (h (.expressions true)) fun _ he => ?_
        exact .after fun _ => .pure (.singleton he)
    · exact .after fun _ => .pure (isQuiet_other (.flatten hparts))

theorem decorator_isQuiet : g.decorator.Yields IsQuiet :=
  .after fun _ => h .access

/-! ## Markup -/

theorem embedded_areQuiet : g.embedded.Yields (AreAll IsQuiet) := by
  refine .after fun _ => .after fun _ => .bind (h (.expressions true)).optional fun _ he => ?_
  exact .after fun _ => .pure (.toList he)

theorem element_isQuiet : g.element.Yields IsQuiet :=
  .bind (h .markup) fun _ he => .after fun _ => .after fun _ => .pure he

/-- An expression in braces with the gap behind it. -/
theorem embedded_pass_areQuiet :
    (do let e ← g.embedded; moveTo (← state).pass; return e :
      Rule (List Tree)).Yields (AreAll IsQuiet) :=
  .bind (embedded_areQuiet h) fun _ he => .after fun _ => .after fun _ => .pure he

theorem markupAttribute_areQuiet : g.markupAttribute.Yields (AreAll IsQuiet) := by
  refine .orElse (embedded_pass_areQuiet h) ?_
  refine .after fun _ => .bind (.optional (P := AreAll IsQuiet) ?_) fun _ hvalue =>
    .pure (.getD hvalue)
  refine .after fun _ => .oneOf_cons ?_ <| .oneOf_cons (embedded_pass_areQuiet h) <|
    .oneOf_cons ?_ .never
  · exact .after fun _ => .pure .nil
  · exact .bind (element_isQuiet h) fun _ he => .pure (.singleton he)

theorem content_areQuiet : g.content.Yields (AreAll IsQuiet) := by
  refine .oneOf_cons ?_ <| .oneOf_cons (embedded_areQuiet h) <| .oneOf_cons ?_ .never
  · exact .after fun _ => .pure .nil
  · exact .bind (h .markup) fun _ he => .pure (.singleton he)

theorem markup_isQuiet : g.markup.Yields IsQuiet := by
  refine .after fun _ => .after fun _ => ?_
  refine .bind (markupAttribute_areQuiet h).many fun attributes hattributes => ?_
  have hall := AreAll.flatten hattributes
  refine .orElse ?_ ?_
  · have hclosed : (do mark "/"; bare ">"; return .other attributes.flatten : Rule Tree).Yields
        IsQuiet := .after fun _ => .after fun _ => .pure (isQuiet_other hall)
    exact .ite (.after fun _ => hclosed) hclosed
  · refine .after fun _ => .bind (content_areQuiet h).many fun _ hcontents => ?_
    refine .after fun _ => .after fun _ => .after fun _ => .after fun _ => ?_
    exact .pure (isQuiet_other (.append hall (.flatten hcontents)))

/-! ## Functions and classes -/

omit h in
theorem functionRest_isQuiet : g.functionRest.Yields IsQuiet :=
  .after fun _ => .after fun _ => .pure (isQuiet_scope _)

omit h in
theorem functionExpression_isQuiet : g.functionExpression.Yields IsQuiet :=
  .after fun _ => .after fun _ => functionRest_isQuiet

omit h in
theorem arrow_isQuiet : (g.arrow withIn).Yields IsQuiet :=
  .after fun _ => .after fun _ => .after fun _ => .pure (isQuiet_scope _)

omit h in
theorem classExpression_isQuiet : g.classExpression.Yields IsQuiet :=
  .after fun _ => .after fun _ => .after fun _ => .pure (isQuiet_scope _)

/-! ## Primary expressions -/

theorem spread_isQuiet : g.spread.Yields IsQuiet :=
  .after fun _ => .bind (h (.expression true)) fun _ he => .pure (isQuiet_other (.singleton he))

/-- An element of a list. -/
theorem spread_or_expression_isQuiet : (orElse g.spread g.expression).Yields IsQuiet :=
  .orElse (spread_isQuiet h) (h (.expression true))

theorem assignedPattern_areQuiet : g.assignedPattern.Yields (AreAll IsQuiet) :=
  .bind (h .pattern) fun _ hp => .after fun _ => .pure (.singleton hp)

theorem array_isQuiet : g.array.Yields IsQuiet := by
  refine .orElse ?_ ?_
  · refine .after fun _ => .bind (spread_or_expression_isQuiet h).sparseList fun _ helements => ?_
    exact .after fun _ => .pure (isQuiet_of_returnsAll rfl helements)
  · exact .bind (assignedPattern_areQuiet h) fun _ hp => .pure (isQuiet_of_returnsAll rfl hp)

theorem objectMember_areQuiet : g.objectMember.Yields (AreAll IsQuiet) := by
  refine .orElse (.bind (spread_isQuiet h) fun _ he => .pure (.singleton he)) ?_
  refine .after fun _ => .after fun _ => .after fun _ => ?_
  refine .bind (propertyName_areQuiet h) fun _ hname => ?_
  refine .bind (P := AreAll IsQuiet) ?_ fun _ hvalue => .pure (.append hname hvalue)
  refine .oneOf_cons ?_ <| .oneOf_cons ?_ <| .oneOf_cons ?_ .never
  · exact .after fun _ => .bind (h (.expression true)) fun _ he => .pure (.singleton he)
  · exact .after fun _ => .bind functionRest_isQuiet fun _ he => .pure (.singleton he)
  · exact .after fun _ => .pure .nil

theorem object_isQuiet : g.object.Yields IsQuiet := by
  refine .orElse ?_ ?_
  · refine .after fun _ => .bind (objectMember_areQuiet h).sparseList fun _ hmembers => ?_
    exact .after fun _ => .pure (isQuiet_of_returnsAll rfl (.flatten hmembers))
  · exact .bind (assignedPattern_areQuiet h) fun _ hp => .pure (isQuiet_of_returnsAll rfl hp)

theorem arguments_areQuiet : g.arguments.Yields (AreAll IsQuiet) := by
  refine .after fun _ => .bind (spread_or_expression_isQuiet h).sparseList fun _ hargs => ?_
  exact .after fun _ => .pure hargs

theorem literal_isQuiet : g.literal.Yields IsQuiet := by
  refine .oneOf_cons ?_ <| .oneOf_cons ?_ <| .oneOf_cons (template_isQuiet h) <|
    .oneOf_cons ?_ <| .oneOf_cons ?_ <| .oneOf_cons ?_ .never
  all_goals exact .after fun _ => .pure (isQuiet_of_returns_eq_nil rfl)

theorem inParens_isQuiet : g.inParens.Yields IsQuiet :=
  .after fun _ => .bind (h (.expressions true)) fun _ he => .after fun _ => .pure he

theorem primary_isQuiet : g.primary.Yields IsQuiet := by
  refine .oneOf_cons (literal_isQuiet h) <| .oneOf_cons ?_ <| .oneOf_cons ?_ <|
    .oneOf_cons (array_isQuiet h) <| .oneOf_cons (object_isQuiet h) <|
    .oneOf_cons functionExpression_isQuiet <| .oneOf_cons classExpression_isQuiet <|
    .oneOf_cons ?_ <| .oneOf_cons ?_ <| .oneOf_cons ?_ <| .oneOf_cons ?_ <| .oneOf_cons ?_ <|
    .oneOf_cons ?_ .never
  · exact .after fun _ => .pure (isQuiet_other .nil)
  · exact .bind (inParens_isQuiet h) fun _ he => .pure he
  · exact .after fun _ => .after fun _ => .after fun _ => .pure (isQuiet_other .nil)
  · refine .after fun _ => .bind (h .access) fun _ he => ?_
    exact .pure (isQuiet_of_returnsAll rfl (.singleton he))
  · exact .after fun _ => .after fun _ => .pure (isQuiet_other .nil)
  · exact .after fun _ => .after fun _ => .pure (isQuiet_other .nil)
  · exact .ite (.after fun _ => element_isQuiet h) (element_isQuiet h)
  · exact .after fun _ => .pure (isQuiet_of_returnsAll rfl .nil)

/-! ## Accesses and calls -/

/-- An expression in square brackets. -/
theorem inBrackets_areQuiet :
    (do mark "["; let e ← g.inner (.expressions true); mark "]"; return [e] :
      Rule (List Tree)).Yields (AreAll IsQuiet) :=
  .after fun _ => .bind (h (.expressions true)) fun _ he => .after fun _ => .pure (.singleton he)

theorem member_areQuiet : g.member.Yields (AreAll IsQuiet) := by
  refine .oneOf_cons ?_ <| .oneOf_cons (inBrackets_areQuiet h) <| .oneOf_cons ?_ .never
  · exact .after fun _ => .after fun _ => .pure .nil
  · exact .ite (.after fun _ => .after fun _ => .after fun _ => .pure .nil)
      (.after fun _ => .after fun _ => .pure .nil)

/-- A template as what a function is called with. -/
theorem template_singleton_areQuiet :
    (do return [← g.template] : Rule (List Tree)).Yields (AreAll IsQuiet) :=
  .bind (template_isQuiet h) fun _ he => .pure (.singleton he)

theorem optionalMember_areQuiet : g.optionalMember.Yields (AreAll IsQuiet) := by
  refine .after fun _ => ?_
  refine .oneOf_cons (arguments_areQuiet h) <| .oneOf_cons (template_singleton_areQuiet h) <|
    .oneOf_cons (inBrackets_areQuiet h) <| .oneOf_cons ?_ <| .oneOf_cons ?_ .never
  · exact .after fun _ => .pure .nil
  · exact .after fun _ => arguments_areQuiet h

theorem call_areQuiet : g.call.Yields (AreAll IsQuiet) := by
  refine .oneOf_cons (arguments_areQuiet h) <| .oneOf_cons (template_singleton_areQuiet h) <|
    .oneOf_cons ?_ .never
  exact .after fun _ => .after fun _ => .pure .nil

theorem access_isQuiet : g.access.Yields IsQuiet := by
  refine .bind (primary_isQuiet h) fun first hfirst => ?_
  refine .bind (.many (P := fun step : Bool × List Tree => AreAll IsQuiet step.2) ?_)
    fun steps hsteps => ?_
  · refine .oneOf_cons ?_ <| .oneOf_cons ?_ <| .oneOf_cons ?_ .never
    · exact .bind (member_areQuiet h) fun _ hstep => .pure hstep
    · exact .bind (optionalMember_areQuiet h) fun _ hstep => .pure hstep
    · exact .bind (call_areQuiet h) fun _ hstep => .pure hstep
  · have hall : AreAll IsQuiet (first :: steps.flatMap (·.2)) := .cons hfirst (.flatMap hsteps)
    split
    · exact .pure hfirst
    · exact .pure (isQuiet_of_returnsAll rfl hall)
    · exact .pure (isQuiet_other hall)

/-! ## Operators -/

theorem unary_isQuiet : g.unary.Yields IsQuiet := by
  have hinner : (do return .other [← g.inner .unary] : Rule Tree).Yields IsQuiet :=
    .bind (h .unary) fun _ he => .pure (isQuiet_other (.singleton he))
  refine .oneOf_cons ?_ <| .oneOf_cons ?_ <| .oneOf_cons ?_ <| .oneOf_cons ?_ <|
    .oneOf_cons ?_ .never
  · exact .after fun _ => .bind (h .unary) fun _ he => .pure he
  · exact .after fun _ => hinner
  · exact .after fun _ => hinner
  · exact .after fun _ => hinner
  · refine .bind (h .access) fun _ he => .after fun _ => ?_
    refine .pure ?_
    split
    · exact isQuiet_other (.singleton he)
    · exact he

theorem operation_isQuiet : (g.operation withIn).Yields IsQuiet := by
  refine .orElse ?_ ?_
  · exact .after fun _ => .orElse arrow_isQuiet (h .unary)
  · exact .ite (.after fun _ => .after fun _ => .after fun _ => .pure (isQuiet_other .nil)) .never

theorem branches_areQuiet : (g.branches withIn).Yields (AreAll IsQuiet) := by
  refine .after fun _ => .bind (P := IsQuiet) ?_ fun _ hyes => ?_
  · refine .orElse ?_ ?_
    · exact .bind (h (.expression true)) fun _ he => .after fun _ => .pure he
    · exact .bind (h .access) fun _ he => .after fun _ => .pure he
  · exact .bind (h (.expression withIn)) fun _ hno => .pure (.cons hyes (.singleton hno))

theorem chain_isQuiet : (g.chain withIn).Yields IsQuiet := by
  refine .bind (h .unary) fun first hfirst => .bind (operation_isQuiet h).many fun rest hrest => ?_
  refine .bind (.optional (P := IsQuiet) ?_) fun value hvalue => ?_
  · exact .after fun _ => .after fun _ => h (.expression withIn)
  refine .bind (branches_areQuiet h).optional fun cases hcases => ?_
  have hmore : AreAll IsQuiet (rest ++ value.toList ++ cases.getD []) :=
    .append (.append hrest (.toList hvalue)) (.getD hcases)
  split
  · exact .pure hfirst
  · exact .pure (isQuiet_other (.cons hfirst hmore))

theorem yieldExpression_isQuiet : (g.yieldExpression withIn).Yields IsQuiet := by
  refine .after fun _ => .after fun _ => .bind (.optional (P := IsQuiet) ?_) fun _ hvalue => ?_
  · exact .after fun _ => h (.expression withIn)
  · exact .pure (isQuiet_other (.toList hvalue))

theorem wholeExpression_isQuiet : (g.wholeExpression withIn).Yields IsQuiet :=
  .oneOf_cons arrow_isQuiet <| .oneOf_cons (yieldExpression_isQuiet h) <|
    .oneOf_cons (chain_isQuiet h) .never

theorem expressionList_isQuiet : (g.expressionList withIn).Yields IsQuiet := by
  refine .bind (h (.expression withIn)).commaList fun list hlist => ?_
  split
  · exact .pure (hlist _ (List.mem_singleton_self _))
  · exact .pure (isQuiet_other hlist)

end

end Grammar

end CustomFunctions.Script
