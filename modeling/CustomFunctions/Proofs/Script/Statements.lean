import CustomFunctions.Proofs.Script.Expressions
import CustomFunctions.Script.Parser

/-!
# Statements tell their return statements

The hints of a statement are those of its return statements outside of scopes, at any depth. Each rule
keeps this up if the rules for the phrases inside do, so it holds of every phrase that holds phrases
inside each other up to any depth, and of all statements of a script.

## Main results

- `Grammar.phrase_yields_allowed` — what is read as a phrase is allowed
- `tellsReturns_of_mem_statements` — each function of a script has a body that tells its return
  statements
-/

namespace CustomFunctions.Script

open CustomFunctions.Script.Tree CustomFunctions.Script.Rule

/-- The tree or the body of a statement tells its return statements. -/
def Statement.TellsReturns : Statement → Prop
  | function f => f.body.TellsReturns
  | enumeration _ => True
  | other tree => tree.TellsReturns

theorem Statement.TellsReturns.tree {s : Statement} (h : s.TellsReturns) : s.tree.TellsReturns := by
  cases s with
  -- inside another statement the body belongs to the declared function
  | function f => exact (isQuiet_scope _).tellsReturns
  | enumeration e => exact tellsReturns_other .nil
  | other tree => exact h

namespace Grammar

variable {g : Grammar} {withIn : Bool} (h : g.IsSound)

/-- A statement without parts. -/
theorem pure_empty_tellsReturns :
    (pure (.other (.other [])) : Rule Statement).Yields Statement.TellsReturns :=
  .pure (tellsReturns_other .nil)

include h

/-! ## Expressions inside of statements -/

theorem expression_tellsReturns : g.expression.Yields TellsReturns :=
  (h (.expression true)).mono fun _ => IsQuiet.tellsReturns

theorem expressions_tellsReturns : (g.inner (.expressions withIn)).Yields TellsReturns :=
  (h (.expressions withIn)).mono fun _ => IsQuiet.tellsReturns

theorem inParens_tellsReturns : g.inParens.Yields TellsReturns :=
  (inParens_isQuiet h).mono fun _ => IsQuiet.tellsReturns

theorem decorators_tellReturns : (many g.decorator).Yields (AreAll TellsReturns) :=
  (decorator_isQuiet h).many.mono fun _ hall => AreAll.mono hall fun _ => IsQuiet.tellsReturns

/-! ## Classes -/

theorem fieldRest_areQuiet : g.fieldRest.Yields (AreAll IsQuiet) := by
  refine .after fun _ => .bind (initializer_isQuiet h).optional fun _ hvalue => ?_
  exact .ite (.after fun _ => .pure (.toList hvalue)) (.after fun _ => .pure (.toList hvalue))

omit h in
theorem methodRest_areQuiet : g.methodRest.Yields (AreAll IsQuiet) := by
  refine .after fun _ => .choose _ ?_ ?_
  · exact .after fun _ => .pure .nil
  · exact .after fun _ => .pure (.singleton (isQuiet_scope _))

/-- A block among the members of a class may hold return statements, and nothing else there may. -/
theorem classMember_tellsReturns : g.classMember.Yields (AreAll TellsReturns) := by
  refine .oneOf_cons ?_ <| .oneOf_cons ?_ <| .oneOf_cons ?_ <| .oneOf_cons ?_ .never
  · exact .after fun _ => .pure .nil
  · exact .after fun _ => .bind (h .block) fun _ hbody => .pure (.singleton hbody)
  · exact .after fun _ => .after fun _ => .pure .nil
  · refine .bind (decorators_tellReturns h) fun _ hdecorators => .after fun _ => .after fun _ => ?_
    refine .bind (propertyName_areQuiet h) fun _ hname => .after fun _ => ?_
    refine .bind (.choose _ methodRest_areQuiet (fieldRest_areQuiet h)) fun _ hrest => .pure ?_
    have hquiet := AreAll.append hname hrest
    rw [List.append_assoc]
    exact hdecorators.append (hquiet.mono fun _ => IsQuiet.tellsReturns)

theorem classRest_tellsReturns : g.classRest.Yields (AreAll TellsReturns) := by
  refine .after fun _ => .after fun _ => .bind (.optional (P := IsQuiet) ?_) fun _ hbase => ?_
  · exact .after fun _ => .bind (h .access) fun _ he => .after fun _ => .pure he
  refine .after fun _ => .after fun _ => ?_
  refine .bind (classMember_tellsReturns h).many fun _ hmembers => .after fun _ => .pure ?_
  exact .append (AreAll.mono (.toList hbase) fun _ => IsQuiet.tellsReturns) (.flatten hmembers)

/-! ## Declarations -/

theorem functionDeclaration_tellsReturns :
    g.functionDeclaration.Yields Statement.TellsReturns := by
  refine .after fun _ => .after fun _ => .after fun _ => .after fun _ => .choose _ ?_ ?_
  · exact .after fun _ => pure_empty_tellsReturns
  · exact .bind (h .block) fun _ hbody => .pure hbody

theorem classDeclaration_tellsReturns : g.classDeclaration.Yields Statement.TellsReturns := by
  refine .bind (decorators_tellReturns h) fun decorators hdecorators => ?_
  refine .after fun isAbstract => .after fun _ => ?_
  refine .bind (classRest_tellsReturns h) fun parts hparts => .pure ?_
  have hall : AreAll TellsReturns (decorators ++ parts) := .append hdecorators hparts
  by_cases hAbstract : isAbstract.isSome = true
  · rw [if_pos hAbstract]
    exact tellsReturns_abstractClass hall
  · rw [if_neg hAbstract]
    exact (isQuiet_scope _).tellsReturns

theorem variableDeclarator_areQuiet :
    (g.variableDeclarator withIn).Yields fun read => AreAll IsQuiet read.2 := by
  refine .bind (h .pattern) fun _ htarget => .after fun _ => ?_
  refine .bind (initializer_isQuiet h).optional fun _ hvalue => ?_
  exact .pure (.cons htarget (.toList hvalue))

theorem variableDeclarators_areQuiet :
    (g.variableDeclarators withIn).Yields fun read => AreAll IsQuiet read.2 :=
  .after fun _ => .bind (variableDeclarator_areQuiet h).commaList fun _ hlist =>
    .pure (.flatMap hlist)

theorem variableDeclaration_tellsReturns :
    g.variableDeclaration.Yields Statement.TellsReturns := by
  refine .bind (variableDeclarators_areQuiet h) fun _ hparts => ?_
  have hread : (Pure.pure (.other (.other _)) : Rule Statement).Yields Statement.TellsReturns :=
    .pure (isQuiet_other hparts).tellsReturns
  exact .ite (.after fun _ => hread) (.after fun _ => hread)

theorem namespaceDeclaration_tellsReturns : g.namespaceDeclaration.Yields TellsReturns := by
  refine .after fun _ => .after fun _ => .after fun _ => .choose _ ?_ ?_
  · exact .bind (h .block) fun _ hbody => .pure (tellsReturns_other (.singleton hbody))
  · exact .after fun _ => .pure (tellsReturns_other .nil)

theorem ambientDeclaration_tellsReturns : g.ambientDeclaration.Yields TellsReturns :=
  .after fun _ => .choose _ (.after fun _ => h .block) (h .statement)

omit h in
theorem enumDeclaration_tellsReturns : g.enumDeclaration.Yields Statement.TellsReturns :=
  .after fun _ => .after fun _ => .after fun _ => .after fun _ => .after fun _ => .after fun _ =>
    .after fun _ => .pure trivial

theorem typedDeclaration_tellsReturns : g.typedDeclaration.Yields Statement.TellsReturns := by
  refine .ite ?_ .never
  refine .oneOf_cons enumDeclaration_tellsReturns <| .oneOf_cons ?_ <| .oneOf_cons ?_ <|
    .oneOf_cons ?_ <| .oneOf_cons ?_ .never
  · exact .after fun _ => pure_empty_tellsReturns
  · exact .after fun _ => pure_empty_tellsReturns
  · exact .bind (namespaceDeclaration_tellsReturns h) fun _ ht => .pure ht
  · exact .bind (ambientDeclaration_tellsReturns h) fun _ ht => .pure ht

theorem declaration_tellsReturns : g.declaration.Yields Statement.TellsReturns := by
  refine .after fun _ => .ite (functionDeclaration_tellsReturns h) ?_
  exact .oneOf_cons (typedDeclaration_tellsReturns h) <|
    .oneOf_cons (classDeclaration_tellsReturns h) <|
    .oneOf_cons (variableDeclaration_tellsReturns h) .never

/-! ## Branches and loops -/

theorem block_tellsReturns : g.block.Yields TellsReturns := by
  refine .after fun _ => .bind (h .statement).many fun _ hbody => ?_
  exact .after fun _ => .pure (tellsReturns_other hbody)

theorem ifStatement_tellsReturns : g.ifStatement.Yields TellsReturns := by
  refine .after fun _ => .bind (inParens_tellsReturns h) fun _ hcondition => ?_
  refine .bind (h .statement) fun _ hyes => ?_
  refine .bind (.optional (P := TellsReturns) (.after fun _ => h .statement)) fun _ hno => ?_
  exact .pure (tellsReturns_other (.cons hcondition (.cons hyes (.toList hno))))

theorem loopSource_areQuiet {target : Rule (List Tree)} (htarget : target.Yields (AreAll IsQuiet)) :
    (g.loopSource target).Yields (AreAll IsQuiet) := by
  refine .bind htarget fun _ ht => .after fun _ => ?_
  exact .bind (h (.expressions true)) fun _ he => .pure (.append ht (.singleton he))

theorem loopCounter_areQuiet : g.loopCounter.Yields (AreAll IsQuiet) := by
  refine .bind (.optional (P := AreAll IsQuiet) ?_) fun _ hstart => ?_
  · refine .oneOf_cons ?_ <| .oneOf_cons ?_ .never
    · exact .bind (variableDeclarators_areQuiet h) fun _ hread => .pure hread
    · exact .bind (h (.expressions false)) fun _ he => .pure (.singleton he)
  refine .after fun _ => .bind (h (.expressions true)).optional fun _ hcondition => ?_
  refine .after fun _ => .bind (h (.expressions true)).optional fun _ hstep => ?_
  exact .pure (.append (.append (.getD hstart) (.toList hcondition)) (.toList hstep))

theorem forStatement_tellsReturns : g.forStatement.Yields TellsReturns := by
  refine .after fun _ => .after fun _ => .after fun _ => ?_
  refine .bind (P := AreAll IsQuiet) ?_ fun _ hhead => ?_
  · refine .oneOf_cons (loopSource_areQuiet h ?_) <| .oneOf_cons (loopSource_areQuiet h ?_) <|
      .oneOf_cons (loopSource_areQuiet h ?_) <| .oneOf_cons (loopCounter_areQuiet h) .never
    · exact .after fun _ => .bind (variableDeclarator_areQuiet h) fun _ hread => .pure hread
    · exact .bind (h .access) fun _ he => .pure (.singleton he)
    · exact .bind (h .pattern) fun _ hp => .pure (.singleton hp)
  · refine .after fun _ => .bind (h .statement) fun _ hbody => .pure (tellsReturns_other ?_)
    exact .append (AreAll.mono hhead fun _ => IsQuiet.tellsReturns) (.singleton hbody)

theorem whileStatement_tellsReturns : g.whileStatement.Yields TellsReturns := by
  refine .after fun _ => .bind (inParens_tellsReturns h) fun _ hcondition => ?_
  refine .bind (h .statement) fun _ hbody => ?_
  exact .pure (tellsReturns_other (.cons hcondition (.singleton hbody)))

theorem doStatement_tellsReturns : g.doStatement.Yields TellsReturns := by
  refine .after fun _ => .bind (h .statement) fun _ hbody => .after fun _ => ?_
  refine .bind (inParens_tellsReturns h) fun _ hcondition => .after fun _ => ?_
  exact .pure (tellsReturns_other (.cons hbody (.singleton hcondition)))

theorem switchCase_tellsReturns : g.switchCase.Yields (AreAll TellsReturns) := by
  refine .bind (P := AreAll TellsReturns) ?_ fun _ hvalue => ?_
  · refine .orElse ?_ ?_
    · exact .after fun _ => .bind (expressions_tellsReturns h) fun _ he => .pure (.singleton he)
    · exact .after fun _ => .pure .nil
  · exact .after fun _ => .bind (h .statement).many fun _ hbody => .pure (.append hvalue hbody)

theorem switchStatement_tellsReturns : g.switchStatement.Yields TellsReturns := by
  refine .after fun _ => .bind (inParens_tellsReturns h) fun _ hvalue => .after fun _ => ?_
  refine .bind (switchCase_tellsReturns h).many fun _ hcases => .after fun _ => ?_
  exact .pure (tellsReturns_other (.cons hvalue (.flatten hcases)))

theorem tryStatement_tellsReturns : g.tryStatement.Yields TellsReturns := by
  refine .after fun _ => .bind (h .block) fun _ hbody => ?_
  refine .bind (.optional (P := TellsReturns) (.after fun _ => .after fun _ => h .block))
    fun _ hhandler => ?_
  refine .bind (.optional (P := TellsReturns) (.after fun _ => h .block)) fun _ hfinal => ?_
  refine .after fun _ => .pure (tellsReturns_other ?_)
  exact .append (.cons hbody (.toList hhandler)) (.toList hfinal)

/-! ## Jumps -/

theorem returnStatement_tellsReturns : g.returnStatement.Yields TellsReturns := by
  refine .after fun _ => .orElse ?_ ?_
  · exact .after fun _ => .pure tellsReturns_returnNothing
  · refine .bind (h (.expressions true)) fun _ hvalue => .after fun _ => ?_
    exact .pure (tellsReturns_returnValue hvalue)

/-- An expression up to the end of its statement. -/
theorem expression_end_tellsReturns :
    (do let value ← g.inner (.expressions true); statementEnd g.dialect .expression
        return .other [value] : Rule Tree).Yields TellsReturns :=
  .bind (expressions_tellsReturns h) fun _ hvalue => .after fun _ =>
    .pure (tellsReturns_other (.singleton hvalue))

theorem throwStatement_tellsReturns : g.throwStatement.Yields TellsReturns :=
  .after fun _ => expression_end_tellsReturns h

omit h in
theorem breakStatement_tellsReturns : g.breakStatement.Yields TellsReturns :=
  .after fun _ => .after fun _ => .pure (tellsReturns_other .nil)

/-! ## Imports and exports -/

omit h in
theorem importStatement_tellsReturns : g.importStatement.Yields TellsReturns :=
  .after fun _ => .after fun _ => .pure (tellsReturns_other .nil)

theorem exportStatement_tellsReturns : g.exportStatement.Yields Statement.TellsReturns := by
  refine .bind (decorators_tellReturns h) fun decorators hdecorators => .after fun _ => ?_
  refine .oneOf_cons ?_ <| .oneOf_cons ?_ <| .oneOf_cons ?_ <| .oneOf_cons ?_ <| .oneOf_cons ?_ <|
    .oneOf_cons ?_ <| .oneOf_cons ?_ .never
  · exact .after fun _ => .after fun _ => .after fun _ => .after fun _ => .after fun _ =>
      pure_empty_tellsReturns
  · exact .after fun _ => .after fun _ => .after fun _ => pure_empty_tellsReturns
  · refine .after fun _ => .after fun _ => .ite (functionDeclaration_tellsReturns h) ?_
    refine .oneOf_cons ?_ <| .oneOf_cons ?_ <| .oneOf_cons ?_ .never
    · exact .after fun _ => classDeclaration_tellsReturns h
    · exact .after fun _ => pure_empty_tellsReturns
    · refine .bind (expressions_tellsReturns h) fun _ hvalue => .after fun _ => ?_
      exact .pure (tellsReturns_other (.singleton hvalue))
  · refine .ite (.after fun _ => .bind (expression_tellsReturns h) fun _ hvalue => ?_) .never
    exact .after fun _ => .pure (tellsReturns_other (.singleton hvalue))
  · exact .ite (.after fun _ => .after fun _ => .after fun _ => .after fun _ =>
      pure_empty_tellsReturns) .never
  · exact .ite (.after fun _ => .after fun _ => pure_empty_tellsReturns) .never
  · refine .bind (declaration_tellsReturns h) fun found hfound => ?_
    cases found with
    | other tree => exact .pure (tellsReturns_other (.append hdecorators (.singleton hfound)))
    | function f => exact .pure hfound
    | enumeration e => exact .pure hfound

/-! ## Statements -/

theorem labeledStatement_tellsReturns : g.labeledStatement.Yields TellsReturns := by
  refine .after fun _ => .after fun _ => .bind (h .statement) fun _ hbody => ?_
  exact .pure (tellsReturns_other (.singleton hbody))

theorem expressionStatement_tellsReturns : g.expressionStatement.Yields TellsReturns :=
  .after fun _ => .after fun _ => expression_end_tellsReturns h

theorem plainStatement_tellsReturns : g.plainStatement.Yields TellsReturns :=
  .oneOf_cons (h .block) <| .oneOf_cons (.after fun _ => .pure (tellsReturns_other .nil)) <|
    .oneOf_cons (ifStatement_tellsReturns h) <| .oneOf_cons (forStatement_tellsReturns h) <|
    .oneOf_cons (whileStatement_tellsReturns h) <| .oneOf_cons (doStatement_tellsReturns h) <|
    .oneOf_cons (switchStatement_tellsReturns h) <| .oneOf_cons (tryStatement_tellsReturns h) <|
    .oneOf_cons (returnStatement_tellsReturns h) <| .oneOf_cons (throwStatement_tellsReturns h) <|
    .oneOf_cons breakStatement_tellsReturns <| .oneOf_cons importStatement_tellsReturns <|
    .oneOf_cons (labeledStatement_tellsReturns h) <|
    .oneOf_cons (expressionStatement_tellsReturns h) .never

theorem wholeStatement_tellsReturns : g.wholeStatement.Yields Statement.TellsReturns :=
  .oneOf_cons (declaration_tellsReturns h) <| .oneOf_cons (exportStatement_tellsReturns h) <|
    .oneOf_cons (.bind (plainStatement_tellsReturns h) fun _ ht => .pure ht) .never

/-! ## Phrases -/

omit h in
theorem typeTree_isQuiet (p : Rule Unit) : (typeTree p).Yields IsQuiet :=
  .after fun _ => .pure (isQuiet_other .nil)

/-- Each rule reads what is allowed if the rules for the phrases inside do. -/
theorem rule_yields_allowed (goal : Goal) : (g.rule goal).Yields goal.Allows := by
  cases goal with
  | statement => exact .bind (wholeStatement_tellsReturns h) fun _ hs => .pure hs.tree
  | block => exact block_tellsReturns h
  | expression withIn => exact wholeExpression_isQuiet h
  | expressions withIn => exact expressionList_isQuiet h
  | unary => exact unary_isQuiet h
  | access => exact access_isQuiet h
  | type => exact typeTree_isQuiet _
  | typeOperand => exact typeTree_isQuiet _
  | pattern => exact pattern_isQuiet h
  | markup => exact markup_isQuiet h

end Grammar

/-- Whatever the depth, a phrase is read as what is allowed. -/
theorem phrase_isSound (dialect : Language) (depth : Nat) :
    Grammar.IsSound ⟨dialect, phrase dialect depth⟩ := by
  induction depth with
  | zero => exact fun _ => .never
  | succ depth ih => exact Grammar.rule_yields_allowed ih

theorem program_tellsReturns {g : Grammar} (h : g.IsSound) :
    (program g).Yields fun list => ∀ entry ∈ list, entry.2.TellsReturns := by
  refine .after fun _ => .bind (.many ?_) fun _ hlist => .after fun _ => .pure hlist
  exact .after fun _ => .bind (Grammar.wholeStatement_tellsReturns h) fun _ hs => .pure hs

/-- Each statement of a script tells its return statements. -/
theorem tellsReturns_of_mem_statements {dialect : Language} {text : List Char}
    {list : List (Option Comment × Statement)} (h : statements? dialect text = .ok list)
    {entry : Option Comment × Statement} (hentry : entry ∈ list) : entry.2.TellsReturns := by
  rw [statements?] at h
  split at h
  · next read next hrun =>
    cases h
    exact program_tellsReturns (phrase_isSound dialect _) _ _ next hrun entry hentry
  · cases h

end CustomFunctions.Script
