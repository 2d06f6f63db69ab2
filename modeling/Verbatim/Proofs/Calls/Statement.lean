import Verbatim.Proofs.Calls.Expression
import Verbatim.Proofs.Grammar.Statement

/-!
# How statements call each other

A compound statement meets the statements inside it behind its keyword, so statements with a
level for each token that is left are those of an endless recursion. The statements themselves
hold rules of the expression grammar, and no rule of that grammar holds a statement.
-/

namespace Verbatim.Grammar

open Verbatim.Parser

variable {b start : Nat}

section Statement

variable {statement statement' : Parser Stmt} (hstatement : SameBelow b statement statement')

include hstatement

/-! ## Blocks and clauses -/

theorem same_blockStatements :
    SameBelow b (blockStatements statement) (blockStatements statement') :=
  .many (rel_startedBy _ hstatement)

theorem same_body : SameBelow b (body statement) (body statement') := by
  refine .peek fun kind => .ite (.start fun start => ?_) ?_
  · refine .pastEat fun typeComment => ?_
    refine .pastExpect fun newline => ?_
    refine .isAt fun _ => .ite ?_ .fail
    refine .past advances_bump.descends fun indent => ?_
    refine (same_blockStatements hstatement).bind fun statements => ?_
    exact .pastExpect fun dedent => .close
  · exact .past yields_line.descends fun line => .pure

/-- The colon of a header and the body behind it. -/
theorem same_afterColon {α : Type} {f f' : Token → Body → Parser α}
    (hf : ∀ colon body, SameBelow b (f colon body) (f' colon body)) :
    SameBelow b (expect .colon >>= fun colon => body statement >>= f colon)
      (expect .colon >>= fun colon => body statement' >>= f' colon) :=
  .pastExpect fun colon => (same_body hstatement).bind (hf colon)

theorem same_blockClause :
    SameBelow (b + 1) (blockClause statement) (blockClause statement') :=
  .start fun _ => .bump fun _ => same_afterColon hstatement fun _ _ => .close

theorem same_elseClause : SameBelow b (elseClause statement) (elseClause statement') :=
  .optional (rel_startedBy _ (same_blockClause hstatement).pred)

theorem same_elifClause : SameBelow (b + 1) (elifClause statement) (elifClause statement') :=
  .start fun _ => .bump fun _ => .past yields_aNamedTest.descends fun _ =>
    same_afterColon hstatement fun _ _ => .close

/-! ## Compound statements -/

theorem same_ifStatement :
    SameBelow (b + 1) (ifStatement statement) (ifStatement statement') := by
  refine .start fun start => .bump fun ifToken => ?_
  refine .past yields_aNamedTest.descends fun condition => ?_
  refine same_afterColon hstatement fun colon body => ?_
  refine (SameBelow.many (rel_startedBy _ (same_elifClause hstatement).pred)).bind fun elifs => ?_
  exact (same_elseClause hstatement).bind fun orelse => .close

theorem same_whileStatement :
    SameBelow (b + 1) (whileStatement statement) (whileStatement statement') :=
  .start fun _ => .bump fun _ => .past yields_aNamedTest.descends fun _ =>
    same_afterColon hstatement fun _ _ => (same_elseClause hstatement).bind fun _ => .close

theorem same_forStatement (async : Option Token) :
    SameBelow (b + 1) (forStatement statement start async)
      (forStatement statement' start async) := by
  refine .expect fun forToken => .past yields_anExprList.descends fun targets => ?_
  refine .pastExpect fun inToken => ?_
  refine .past yields_aTestList.descends fun source => ?_
  refine same_afterColon hstatement fun colon body => ?_
  exact (same_elseClause hstatement).bind fun orelse => .close

theorem same_exceptClause :
    SameBelow (b + 1) (exceptClause statement) (exceptClause statement') := by
  refine .start fun start => .bump fun keyword => ?_
  refine .past (yields_optional (yields_startedBy yields_caught)).descends ?_
  exact fun caught => same_afterColon hstatement fun _ _ => .close

theorem same_tryStatement :
    SameBelow (b + 1) (tryStatement statement) (tryStatement statement') := by
  refine .start fun start => .bump fun tryToken => same_afterColon hstatement fun colon body => ?_
  refine (SameBelow.many (rel_startedBy _ (same_exceptClause hstatement).pred)).bind ?_
  intro handlers
  -- with and without handlers the rest is the same
  refine .ite (SameBelow.pure.bind ?rest) ((same_elseClause hstatement).bind ?rest)
  intro orelse
  refine (SameBelow.optional (rel_startedBy _ (same_blockClause hstatement).pred)).bind ?_
  exact fun finalizer => .ite .fail .close

theorem same_withStatement (async : Option Token) :
    SameBelow (b + 1) (withStatement statement start async)
      (withStatement statement' start async) :=
  .expect fun _ => .past (yields_separated yields_withItem).descends fun _ =>
    same_afterColon hstatement fun _ _ => .close

theorem same_funcDef (decorators : List Decorator) (async : Option Token) :
    SameBelow (b + 1) (funcDef statement start decorators async)
      (funcDef statement' start decorators async) := by
  refine .expect fun keyword => .pastExpect fun name => ?_
  refine .pastExpect fun opener => ?_
  have hparams := yields_withRules fun _ h => yields_params h true .rightParen
  refine .past (yields_optional (yields_startedBy hparams)).descends ?_
  intro params
  refine .pastExpect fun closer => ?_
  have hreturns : Descends (optional (.onKind .arrow (introduced aTest))) :=
    (yields_optional (yields_startedBy (yields_introduced yields_aTest))).descends
  refine .past hreturns fun returns => ?_
  exact same_afterColon hstatement fun _ _ => .close

theorem same_classDef (decorators : List Decorator) :
    SameBelow (b + 1) (classDef statement start decorators)
      (classDef statement' start decorators) := by
  refine .expect fun keyword => .pastExpect fun name => ?_
  have harguments : Descends (optional (.onKind .leftParen classArguments)) :=
    (yields_optional (yields_startedBy yields_classArguments)).descends
  exact .past harguments fun arguments => same_afterColon hstatement fun _ _ => .close

theorem same_asyncStatement :
    SameBelow (b + 1) (asyncStatement statement) (asyncStatement statement') := by
  refine .start fun start => .bump fun async => .peek fun kind => ?_
  split
  · exact (same_funcDef hstatement [] (some async)).pred
  · exact (same_forStatement hstatement (some async)).pred
  · exact (same_withStatement hstatement (some async)).pred
  · exact .fail

theorem same_decorated : SameBelow (b + 1) (decorated statement) (decorated statement') := by
  refine .start fun start => ?_
  refine .past (yields_many (yields_startedBy yields_decorator)).descends ?_
  refine fun decorators => .peek fun kind => ?_
  split
  · exact same_funcDef hstatement decorators none
  · exact same_classDef hstatement decorators
  · exact .bump fun async => .isAt fun _ =>
      .ite (same_funcDef hstatement decorators (some async)).pred .fail
  · exact .fail

theorem same_statementBody :
    SameBelow (b + 1) (statementBody statement) (statementBody statement') := by
  refine .peek fun kind => ?_
  split
  · exact same_ifStatement hstatement
  · exact same_whileStatement hstatement
  · exact .start fun start => same_forStatement hstatement none
  · exact same_tryStatement hstatement
  · exact .start fun start => same_withStatement hstatement none
  · exact .start fun start => same_funcDef hstatement [] none
  · exact .start fun start => same_classDef hstatement []
  · exact same_decorated hstatement
  · exact same_asyncStatement hstatement
  · exact .fail
  · exact .past yields_line.descends fun line => .pure

end Statement

/-! ## Tying the knot -/

theorem knot_statement :
    Knot (fun part (_ : Unit) => statementBody (part ())) fun n _ => statementUpTo n where
  zero _ := (peeks_fail _).descends
  succ _ _ := rfl
  same h _ := same_statementBody (h ())

theorem recursion_statement :
    Recursion (fun part (_ : Unit) => statementBody (part ())) fun _ => statement :=
  knot_statement.recursion

end Verbatim.Grammar
