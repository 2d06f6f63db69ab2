import Verbatim.Grammar.Statement
import Verbatim.Proofs.Decision.Expression
import Verbatim.Proofs.Grammar.Statement

/-!
# Statements are decided by kinds

The rules of the statement grammar are alike on streams that agree. A statement inside
another one stands after at least one token of it, so it may be alike one token less far.
-/

namespace Verbatim.Grammar

open Verbatim.Parser

variable {ρ : Relabelling} {b start start' : Nat}

/-! ## Expressions inside statements -/

theorem alike_aTest : AlikeExpr ρ b aTest aTest :=
  alike_withRules fun hrules => hrules .test

theorem alike_anExpr : AlikeExpr ρ b anExpr anExpr :=
  alike_withRules fun hrules => hrules .expr

theorem alike_aNamedTest : AlikeExpr ρ b aNamedTest aNamedTest :=
  alike_withRules alike_namedTest

theorem alike_aTestList : AlikeExpr ρ b aTestList aTestList :=
  alike_withRules alike_testList

theorem alike_anExprList : AlikeExpr ρ b anExprList anExprList :=
  alike_withRules alike_exprList

theorem alike_introduced {α γ : Type} {view : α → γ} {value : Parser α}
    (h : Alike ρ b view value value) :
    Alike ρ (b + 1) (Introduced.relabel ρ view) (introduced value) (introduced value) := by
  refine .bindStart fun start start' => .bindBump fun token token' htoken => ?_
  refine h.bind fun value value' hvalue => .close fun _ _ => ?_
  simp only [Introduced.relabel, htoken, hvalue]

/-! ## Small statements -/

theorem alike_listValue : Alike ρ b (Value.relabel ρ) listValue listValue := by
  refine (alike_withRules alike_testOrStarList).bind fun e e' he => ?_
  split
  · next span items trailing =>
    cases e' <;> simp at he
    next span' kind items' trailing' =>
    obtain ⟨rfl, hitems, htrailing⟩ := he
    refine .pure ?_
    simp only [Value.relabel, hitems, htrailing]
  · next hother =>
    split
    · next span' items' trailing' =>
      cases e <;> simp at he
      next span kind items trailing =>
      exact absurd (he.1 ▸ rfl) (hother span items trailing)
    · refine .pure ?_
      simp only [Value.relabel, he]

theorem alike_assignedValue : Alike ρ b (Value.relabel ρ) assignedValue assignedValue := by
  refine .bindIsAt fun _ => .ite ?_ alike_listValue
  refine (alike_withRules fun hrules => (alike_yieldExpr hrules).pred).bind fun e e' he => .pure ?_
  simp only [Value.relabel, he]

theorem alike_singleTarget (cause : SyntaxCause) {first first' : Value}
    (h : first.relabel ρ = first'.relabel ρ) :
    AlikeExpr ρ b (singleTarget cause first) (singleTarget cause first') := by
  cases first <;> cases first' <;> simp at h
  · exact .pure h
  · exact .fail

abbrev AlikeSmall (ρ : Relabelling) (b : Nat) (p p' : Parser Small) : Prop :=
  Alike ρ b (Small.relabel ρ) p p'

section Assignments

variable {first first' : Value} (hfirst : first.relabel ρ = first'.relabel ρ)

include hfirst

theorem alike_annotatedAssignment :
    AlikeSmall ρ b (annotatedAssignment start first) (annotatedAssignment start' first') := by
  refine (alike_singleTarget _ hfirst).bind fun target target' htarget => ?_
  refine Alike.bump.bind fun colon colon' hcolon => ?_
  refine alike_aTest.bind fun hint hint' hhint => ?_
  refine (Alike.optional (rel_startedBy _ (alike_introduced alike_assignedValue).pred)).bind ?_
  intro value value' hvalue
  refine .close fun _ _ => ?_
  simp only [Small.relabel, htarget, hcolon, hhint, hvalue]

theorem alike_augmentedAssignment :
    AlikeSmall ρ b (augmentedAssignment start first) (augmentedAssignment start' first') := by
  refine (alike_singleTarget _ hfirst).bind fun target target' htarget => ?_
  refine Alike.bump.bind fun op op' hop => .bindIsAt fun _ => ?_
  have hsingle : Alike ρ b (Value.relabel ρ) (Value.single <$> aTestList)
      (Value.single <$> aTestList) := by
    refine .map alike_aTestList fun e e' he => ?_
    simp only [Value.relabel, he]
  refine .ite (alike_assignedValue.bind ?rest) (hsingle.bind ?rest)
  intro value value' hvalue
  refine .close fun _ _ => ?_
  simp only [Small.relabel, htarget, hop, hvalue]

theorem alike_assignment :
    AlikeSmall ρ b (assignment start first) (assignment start' first') := by
  refine Alike.bump.bind fun equal equal' hequal => ?_
  refine (Alike.separated alike_assignedValue).bind fun rest rest' hrest => .close fun _ _ => ?_
  simp only [Small.relabel, hfirst, hequal, hrest]

end Assignments

theorem alike_expressionStatement :
    AlikeSmall ρ b expressionStatement expressionStatement := by
  refine .bindStart fun start start' => alike_assignedValue.bind fun first first' hfirst => ?_
  refine .bindPeek fun kind => .ite ?_ (.ite ?_ (.ite ?_ (.pure ?_)))
  · exact alike_annotatedAssignment hfirst
  · exact alike_augmentedAssignment hfirst
  · exact alike_assignment hfirst
  · simp only [Small.relabel, hfirst]

theorem alike_simpleKeyword (kind : SimpleKeyword) :
    AlikeSmall ρ b (simpleKeyword kind) (simpleKeyword kind) := by
  refine Alike.bump.bind fun token token' htoken => .pure ?_
  simp only [Small.relabel, htoken]

theorem alike_returnStatement : AlikeSmall ρ b returnStatement returnStatement := by
  refine .bindStart fun start start' => Alike.bump.bind fun keyword keyword' hkeyword => ?_
  refine (Alike.optional (rel_startedBy _ alike_listValue)).bind fun value value' hvalue => ?_
  refine .close fun _ _ => ?_
  simp only [Small.relabel, hkeyword, hvalue]

theorem alike_raised : Alike ρ b (Raised.relabel ρ) raised raised := by
  refine alike_aTest.bind fun exception exception' hexception => ?_
  refine (Alike.optional (rel_startedBy _ (alike_introduced alike_aTest).pred)).bind ?_
  intro cause cause' hcause
  refine .pure ?_
  simp only [Raised.relabel, hexception, hcause]

theorem alike_raiseStatement : AlikeSmall ρ b raiseStatement raiseStatement := by
  refine .bindStart fun start start' => Alike.bump.bind fun keyword keyword' hkeyword => ?_
  refine (Alike.optional (rel_startedBy _ alike_raised)).bind fun raised raised' hraised => ?_
  refine .close fun _ _ => ?_
  simp only [Small.relabel, hkeyword, hraised]

theorem alike_delStatement : AlikeSmall ρ b delStatement delStatement := by
  refine .bindStart fun start start' => Alike.bump.bind fun keyword keyword' hkeyword => ?_
  refine alike_anExprList.bind fun targets targets' htargets => .close fun _ _ => ?_
  simp only [Small.relabel, hkeyword, htargets]

theorem alike_scopeStatement (kind : ScopeKind) :
    AlikeSmall ρ b (scopeStatement kind) (scopeStatement kind) := by
  refine .bindStart fun start start' => Alike.bump.bind fun keyword keyword' hkeyword => ?_
  refine (Alike.separated .expect).bind fun names names' hnames => .close fun _ _ => ?_
  simp only [Small.relabel, hkeyword, hnames]

theorem alike_assertStatement : AlikeSmall ρ b assertStatement assertStatement := by
  refine .bindStart fun start start' => Alike.bump.bind fun keyword keyword' hkeyword => ?_
  refine alike_aTest.bind fun test test' htest => ?_
  refine (Alike.optional (rel_startedBy _ (alike_introduced alike_aTest).pred)).bind ?_
  intro message message' hmessage
  refine .close fun _ _ => ?_
  simp only [Small.relabel, hkeyword, htest, hmessage]

/-! ## Imports -/

theorem alike_dottedName : Alike ρ b (DottedName.relabel ρ) dottedName dottedName := by
  refine .bindStart fun start start' => ?_
  refine (Alike.separated .expect).bind fun parts parts' hparts => .close fun _ _ => ?_
  simp only [DottedName.relabel, hparts]

theorem alike_optionalAlias :
    Alike ρ b (Option.map (AsName.relabel ρ)) optionalAlias optionalAlias :=
  .optional (rel_startedBy _ (alike_introduced .expect).pred)

theorem alike_dottedAsName : Alike ρ b (DottedAsName.relabel ρ) dottedAsName dottedAsName := by
  refine .bindStart fun start start' => alike_dottedName.bind fun name name' hname => ?_
  refine alike_optionalAlias.bind fun asName asName' hasName => .close fun _ _ => ?_
  simp only [DottedAsName.relabel, hname, hasName]

theorem alike_importStatement : AlikeSmall ρ b importStatement importStatement := by
  refine .bindStart fun start start' => Alike.bump.bind fun keyword keyword' hkeyword => ?_
  refine (Alike.separated alike_dottedAsName).bind fun names names' hnames => .close fun _ _ => ?_
  simp only [Small.relabel, hkeyword, hnames]

theorem alike_importAsName : Alike ρ b (ImportAsName.relabel ρ) importAsName importAsName := by
  refine .bindStart fun start start' => Alike.expect.bind fun name name' hname => ?_
  refine alike_optionalAlias.bind fun asName asName' hasName => .close fun _ _ => ?_
  simp only [ImportAsName.relabel, hname, hasName]

theorem alike_bareNames : Alike ρ b (ImportTargets.relabel ρ) bareNames bareNames := by
  refine .bindStart fun start start' => ?_
  refine (Alike.separated alike_importAsName).bind fun names names' hnames => .close fun _ _ => ?_
  simp only [ImportTargets.relabel, hnames]

theorem alike_enclosedNames :
    Alike ρ b (ImportTargets.relabel ρ) enclosedNames enclosedNames := by
  refine .bindStart fun start start' => Alike.bump.bind fun opener opener' hopener => ?_
  refine alike_importAsName.bind fun first first' hfirst => ?_
  refine (Alike.separatedFrom (fun _ _ _ => ?_) alike_importAsName hfirst).bind ?_
  · exact .bindPeek fun _ => .pure rfl
  · rintro ⟨names, trailing⟩ ⟨names', trailing'⟩ h
    simp only [separatedView, Prod.mk.injEq] at h
    refine Alike.expect.bind fun closer closer' hcloser => .close fun _ _ => ?_
    simp only [ImportTargets.relabel, hopener, h, hcloser]

theorem alike_importTargets :
    Alike ρ b (ImportTargets.relabel ρ) importTargets importTargets := by
  refine .bindPeek fun kind => ?_
  split
  · refine Alike.bump.bind fun star star' hstar => .pure ?_
    simp only [ImportTargets.relabel, hstar]
  · exact alike_enclosedNames
  · exact alike_bareNames

theorem alike_importFromStatement :
    AlikeSmall ρ b importFromStatement importFromStatement := by
  refine .bindStart fun start start' => Alike.bump.bind fun fromToken fromToken' hfrom => ?_
  refine (Alike.many (rel_startedBy _ ⟨.bump, advances_bump⟩)).bind fun dots dots' hdots => ?_
  have hempty : dots.isEmpty = dots'.isEmpty := by
    rw [← List.isEmpty_map, hdots, List.isEmpty_map]
  rw [hempty]
  refine (Alike.optional (rel_startedBy _ alike_dottedName)).bind fun module module' hmodule => ?_
  refine Alike.expect.bind fun importToken importToken' himport => ?_
  refine alike_importTargets.bind fun targets targets' htargets => .close fun _ _ => ?_
  simp only [Small.relabel, hfrom, hdots, hmodule, himport, htargets]

theorem alike_small : AlikeSmall ρ b small small := by
  refine .bindPeek fun kind => ?_
  split
  · exact alike_simpleKeyword _
  · exact alike_simpleKeyword _
  · exact alike_simpleKeyword _
  · exact alike_returnStatement
  · exact alike_raiseStatement
  · exact alike_delStatement
  · exact alike_scopeStatement _
  · exact alike_scopeStatement _
  · exact alike_assertStatement
  · exact alike_importStatement
  · exact alike_importFromStatement
  · exact alike_expressionStatement

/-! ## Lines -/

theorem alike_lineBreak : Alike ρ b (Option.map ρ.token) lineBreak lineBreak := by
  refine .bindPeek fun kind => ?_
  split
  · refine Alike.bump.bind fun token token' htoken => .pure ?_
    simp only [Option.map_some, htoken]
  · exact .pure rfl
  · exact .pure rfl
  · exact .fail

theorem alike_line : Alike ρ b (Line.relabel ρ) line line := by
  refine .bindStart fun start start' => alike_small.bind fun first first' hfirst => ?_
  refine (Alike.separatedFrom (fun _ _ _ => ?_) alike_small hfirst).bind ?_
  · exact .bindPeek fun _ => .pure rfl
  · rintro ⟨statements, trailing⟩ ⟨statements', trailing'⟩ h
    simp only [separatedView, Prod.mk.injEq] at h
    refine Alike.eat.bind fun typeComment typeComment' htype => ?_
    refine alike_lineBreak.bind fun newline newline' hnewline => .close fun _ _ => ?_
    simp only [Line.relabel, h, htype, hnewline]

/-! ## Compound statements -/

theorem alike_decorator : Takes ρ (b + 1) (Decorator.relabel ρ) decorator decorator := by
  refine .bindStart fun start start' => .bindBump fun mark mark' hmark => ?_
  refine alike_aNamedTest.bind fun expression expression' hexpression => ?_
  refine Alike.eat.bind fun typeComment typeComment' htype => ?_
  refine Alike.expect.bind fun newline newline' hnewline => .close fun _ _ => ?_
  simp only [Decorator.relabel, hmark, hexpression, htype, hnewline]

theorem alike_withItem : Alike ρ b (WithItem.relabel ρ) withItem withItem := by
  refine .bindStart fun start start' => alike_aTest.bind fun context context' hcontext => ?_
  refine (Alike.optional (rel_startedBy _ (alike_introduced alike_anExpr).pred)).bind ?_
  intro target target' htarget
  refine .close fun _ _ => ?_
  simp only [WithItem.relabel, hcontext, htarget]

theorem alike_caught : Alike ρ b (Caught.relabel ρ) caught caught := by
  refine alike_aTest.bind fun test test' htest => ?_
  refine alike_optionalAlias.bind fun asName asName' hasName => .pure ?_
  simp only [Caught.relabel, htest, hasName]

theorem alike_classArguments :
    Alike ρ b (ClassArguments.relabel ρ) classArguments classArguments := by
  refine (alike_bracketed _ (alike_withRules alike_argList)).toAlike.pred.bind ?_
  rintro ⟨opener, inside, closer⟩ ⟨opener', inside', closer'⟩ h
  simp only [bracketedView, Prod.mk.injEq] at h
  refine .pure ?_
  simp only [ClassArguments.relabel, relabelExprOption_eq, h]

abbrev AlikeStatement (ρ : Relabelling) (b : Nat) (p p' : Parser Stmt) : Prop :=
  Alike ρ b (Stmt.relabel ρ) p p'

section Statement

variable {statement statement' : Parser Stmt}
  (hstatement : Takes ρ b (Stmt.relabel ρ) statement statement')

include hstatement

theorem alike_body : Alike ρ b (Body.relabel ρ) (body statement) (body statement') := by
  refine .bindPeek fun kind => .ite ?_ ?_
  · refine .bindStart fun start start' => Alike.eat.bind fun typeComment typeComment' htype => ?_
    refine Alike.expect.bind fun newline newline' hnewline => ?_
    refine .bindIsAt fun _ => .ite (Alike.bump.bind fun indent indent' hindent => ?_) .fail
    refine (Alike.many (rel_startedBy _ hstatement)).bind fun statements statements' hall => ?_
    refine Alike.expect.bind fun dedent dedent' hdedent => .close fun _ _ => ?_
    simp only [Body.relabel, relabelStmts_eq, htype, hnewline, hindent, hall, hdedent]
  · refine alike_line.bind fun line line' hline => .pure ?_
    simp only [Body.relabel, hline]

theorem alike_blockClause :
    Alike ρ b (BlockClause.relabel ρ) (blockClause statement) (blockClause statement') := by
  refine .bindStart fun start start' => Alike.bump.bind fun keyword keyword' hkeyword => ?_
  refine Alike.expect.bind fun colon colon' hcolon => ?_
  refine (alike_body hstatement).bind fun body body' hbody => .close fun _ _ => ?_
  simp only [BlockClause.relabel, hkeyword, hcolon, hbody]

theorem alike_elseClause :
    Alike ρ b (Option.map (BlockClause.relabel ρ)) (elseClause statement)
      (elseClause statement') :=
  .optional (rel_startedBy _ (alike_blockClause hstatement))

theorem alike_elifClause :
    Takes ρ (b + 1) (ElifClause.relabel ρ) (elifClause statement) (elifClause statement') := by
  refine .bindStart fun start start' => .bindBump fun keyword keyword' hkeyword => ?_
  refine alike_aNamedTest.bind fun condition condition' hcondition => ?_
  refine Alike.expect.bind fun colon colon' hcolon => ?_
  refine (alike_body hstatement).bind fun body body' hbody => .close fun _ _ => ?_
  simp only [ElifClause.relabel, hkeyword, hcondition, hcolon, hbody]

theorem alike_ifStatement :
    AlikeStatement ρ (b + 1) (ifStatement statement) (ifStatement statement') := by
  refine .bindStart fun start start' => .bindBump fun ifToken ifToken' hif => ?_
  refine alike_aNamedTest.bind fun condition condition' hcondition => ?_
  refine Alike.expect.bind fun colon colon' hcolon => ?_
  refine (alike_body hstatement).bind fun body body' hbody => ?_
  have helif := alike_elifClause hstatement
  have hmany := Alike.many (rel_startedBy (· == .kwElif) ⟨helif.pred, helif.advances⟩)
  refine hmany.bind fun elifs elifs' helifs => ?_
  refine (alike_elseClause hstatement).bind fun orelse orelse' horelse => .close fun _ _ => ?_
  simp only [Stmt.relabel, relabelElifs_eq, relabelClause_eq, hif, hcondition, hcolon, hbody,
    helifs, horelse]

theorem alike_whileStatement :
    AlikeStatement ρ (b + 1) (whileStatement statement) (whileStatement statement') := by
  refine .bindStart fun start start' => .bindBump fun whileToken whileToken' hwhile => ?_
  refine alike_aNamedTest.bind fun condition condition' hcondition => ?_
  refine Alike.expect.bind fun colon colon' hcolon => ?_
  refine (alike_body hstatement).bind fun body body' hbody => ?_
  refine (alike_elseClause hstatement).bind fun orelse orelse' horelse => .close fun _ _ => ?_
  simp only [Stmt.relabel, relabelClause_eq, hwhile, hcondition, hcolon, hbody, horelse]

theorem alike_forStatement {async async' : Option Token}
    (hasync : async.map ρ.token = async'.map ρ.token) :
    AlikeStatement ρ (b + 1) (forStatement statement start async)
      (forStatement statement' start' async') := by
  refine .bindExpect fun forToken forToken' hfor => ?_
  refine alike_anExprList.bind fun targets targets' htargets => ?_
  refine Alike.expect.bind fun inToken inToken' hin => ?_
  refine alike_aTestList.bind fun source source' hsource => ?_
  refine Alike.expect.bind fun colon colon' hcolon => ?_
  refine (alike_body hstatement).bind fun body body' hbody => ?_
  refine (alike_elseClause hstatement).bind fun orelse orelse' horelse => .close fun _ _ => ?_
  simp only [Stmt.relabel, relabelClause_eq, hasync, hfor, htargets, hin, hsource, hcolon, hbody,
    horelse]

theorem alike_exceptClause :
    Takes ρ (b + 1) (ExceptClause.relabel ρ) (exceptClause statement)
      (exceptClause statement') := by
  refine .bindStart fun start start' => .bindBump fun keyword keyword' hkeyword => ?_
  refine (Alike.optional (rel_startedBy _ alike_caught)).bind fun caught caught' hcaught => ?_
  refine Alike.expect.bind fun colon colon' hcolon => ?_
  refine (alike_body hstatement).bind fun body body' hbody => .close fun _ _ => ?_
  simp only [ExceptClause.relabel, hkeyword, hcaught, hcolon, hbody]

theorem alike_tryStatement :
    AlikeStatement ρ (b + 1) (tryStatement statement) (tryStatement statement') := by
  refine .bindStart fun start start' => .bindBump fun tryToken tryToken' htry => ?_
  refine Alike.expect.bind fun colon colon' hcolon => ?_
  refine (alike_body hstatement).bind fun body body' hbody => ?_
  have hexcept := alike_exceptClause hstatement
  refine (Alike.many (rel_startedBy _ ⟨hexcept.pred, hexcept.advances⟩)).bind ?_
  intro handlers handlers' hhandlers
  have hempty : handlers.isEmpty = handlers'.isEmpty := by
    rw [← List.isEmpty_map, hhandlers, List.isEmpty_map]
  rw [hempty]
  have hnone : Alike ρ b (Option.map (BlockClause.relabel ρ)) (pure none) (pure none) := .pure rfl
  refine .ite (hnone.bind ?rest) ((alike_elseClause hstatement).bind ?rest)
  intro orelse orelse' horelse
  refine (Alike.optional (rel_startedBy _ (alike_blockClause hstatement))).bind ?_
  intro finalizer finalizer' hfinalizer
  have hnone : finalizer.isNone = finalizer'.isNone := by
    rw [← Option.isNone_map, hfinalizer, Option.isNone_map]
  rw [hnone]
  refine .ite .fail (.close fun _ _ => ?_)
  simp only [Stmt.relabel, relabelHandlers_eq, relabelClause_eq, htry, hcolon, hbody, hhandlers,
    horelse, hfinalizer]

theorem alike_withStatement {async async' : Option Token}
    (hasync : async.map ρ.token = async'.map ρ.token) :
    AlikeStatement ρ (b + 1) (withStatement statement start async)
      (withStatement statement' start' async') := by
  refine .bindExpect fun withToken withToken' hwith => ?_
  refine (Alike.separated alike_withItem).bind fun items items' hitems => ?_
  refine Alike.expect.bind fun colon colon' hcolon => ?_
  refine (alike_body hstatement).bind fun body body' hbody => .close fun _ _ => ?_
  simp only [Stmt.relabel, hasync, hwith, hitems, hcolon, hbody]

theorem alike_funcDef {decorators decorators' : List Decorator} {async async' : Option Token}
    (hdecorators : decorators.map (Decorator.relabel ρ) = decorators'.map (Decorator.relabel ρ))
    (hasync : async.map ρ.token = async'.map ρ.token) :
    AlikeStatement ρ (b + 1) (funcDef statement start decorators async)
      (funcDef statement' start' decorators' async') := by
  refine .bindExpect fun keyword keyword' hkeyword => ?_
  refine Alike.expect.bind fun name name' hname => ?_
  refine Alike.expect.bind fun opener opener' hopener => ?_
  have hparams : Alike ρ b (Params.relabel ρ) (withRules (params · true .rightParen))
      (withRules (params · true .rightParen)) :=
    alike_withRules fun hrules => (alike_params hrules true .rightParen).pred
  refine (Alike.optional (rel_startedBy _ hparams)).bind fun params params' hparams => ?_
  refine Alike.expect.bind fun closer closer' hcloser => ?_
  refine (Alike.optional (rel_startedBy _ (alike_introduced alike_aTest).pred)).bind ?_
  intro returns returns' hreturns
  refine Alike.expect.bind fun colon colon' hcolon => ?_
  refine (alike_body hstatement).bind fun body body' hbody => .close fun _ _ => ?_
  simp only [Stmt.relabel, relabelParamsOption_eq, hdecorators, hasync, hkeyword, hname, hopener,
    hparams, hcloser, hreturns, hcolon, hbody]

theorem alike_classDef {decorators decorators' : List Decorator}
    (hdecorators : decorators.map (Decorator.relabel ρ) = decorators'.map (Decorator.relabel ρ)) :
    AlikeStatement ρ (b + 1) (classDef statement start decorators)
      (classDef statement' start' decorators') := by
  refine .bindExpect fun keyword keyword' hkeyword => ?_
  refine Alike.expect.bind fun name name' hname => ?_
  refine (Alike.optional (rel_startedBy _ alike_classArguments)).bind ?_
  intro arguments arguments' harguments
  refine Alike.expect.bind fun colon colon' hcolon => ?_
  refine (alike_body hstatement).bind fun body body' hbody => .close fun _ _ => ?_
  simp only [Stmt.relabel, hdecorators, hkeyword, hname, harguments, hcolon, hbody]

theorem alike_asyncStatement :
    AlikeStatement ρ (b + 1) (asyncStatement statement) (asyncStatement statement') := by
  refine .bindStart fun start start' => .bindBump fun async async' htoken => ?_
  have hasync : (some async).map ρ.token = (some async').map ρ.token := congrArg some htoken
  refine .bindPeek fun kind => ?_
  split
  · exact (alike_funcDef hstatement rfl hasync).pred
  · exact (alike_forStatement hstatement hasync).pred
  · exact (alike_withStatement hstatement hasync).pred
  · exact .fail

theorem alike_decorated :
    AlikeStatement ρ (b + 1) (decorated statement) (decorated statement') := by
  refine .bindStart fun start start' => ?_
  refine (Alike.many (rel_startedBy _ alike_decorator)).bind ?_
  intro decorators decorators' hdecorators
  refine .bindPeek fun kind => ?_
  split
  · exact alike_funcDef hstatement hdecorators rfl
  · exact alike_classDef hstatement hdecorators
  · refine .bindBump fun async async' htoken => .bindIsAt fun _ => .ite ?_ .fail
    have hasync : (some async).map ρ.token = (some async').map ρ.token := congrArg some htoken
    exact (alike_funcDef hstatement hdecorators hasync).pred
  · exact .fail

theorem alike_statementBody :
    AlikeStatement ρ (b + 1) (statementBody statement) (statementBody statement') := by
  refine .bindPeek fun kind => ?_
  split
  · exact alike_ifStatement hstatement
  · exact alike_whileStatement hstatement
  · exact .bindStart fun _ _ => alike_forStatement hstatement rfl
  · exact alike_tryStatement hstatement
  · exact .bindStart fun _ _ => alike_withStatement hstatement rfl
  · exact .bindStart fun _ _ => alike_funcDef hstatement rfl rfl
  · exact .bindStart fun _ _ => alike_classDef hstatement rfl
  · exact alike_decorated hstatement
  · exact alike_asyncStatement hstatement
  · exact .fail
  · refine alike_line.bind fun line line' hline => .pure ?_
    simp only [Stmt.relabel, hline]

end Statement

/-! ## Tying the knot -/

theorem alike_statement : Takes ρ b (Stmt.relabel ρ) statement statement where
  advances := yields_statement.advances fun _ => List.cons_ne_nil _ _
  toAlike := by
    refine .atLength statementUpTo statementUpTo fun c n m hc hn hm =>
      Alike.upTo (b := b) (fun _ : Unit => ()) (fun n _ => statementUpTo n)
        (fun n _ => statementUpTo n) (fun _ _ _ => .fail) ?_ c n m hc hn hm () () rfl
    intro c n m _ ih _ _ _
    have hle : c ≤ c - 1 + 1 := by omega
    have hadvances : Advances (statementUpTo n) :=
      (yields_statementUpTo n).advances fun _ => List.cons_ne_nil _ _
    exact (alike_statementBody ⟨ih () () rfl, hadvances⟩).mono hle

/-- Where the parse of a statement fails at a token of some kind on its own, it fails at any other
token of that kind, whatever comes next. -/
theorem statement_error_of_kind {kind : TokenKind} {s : Stream} (hs : s.current.kind = kind)
    (hfails : ∀ failure, ∃ cause, statement ⟨⟨kind, .empty 0, [], []⟩, [], failure, 0⟩ =
      .error (.syntactic ⟨cause, ⟨kind, .empty 0, [], []⟩⟩)) :
    ∃ cause, statement s = .error (.syntactic ⟨cause, s.current⟩) := by
  have hall (failure : Option LexicalError) (hends : s.EndsAt 0 ↔ failure = none) :
      ∃ cause, statement s = .error (.syntactic ⟨cause, s.current⟩) := by
    have hagree : s.Agree .bare 0 ⟨⟨kind, .empty 0, [], []⟩, [], failure, 0⟩ := by
      refine ⟨Nat.zero_le _, Nat.zero_le _, ?_, hends.trans ?_⟩
      · simp [Stream.tokens, Relabelling.bare, hs]
      · simp [Stream.EndsAt]
    have halike := (alike_statement (b := 1)).both 0 _ _ Nat.one_pos hagree
    obtain ⟨cause, hdecided⟩ := hfails failure
    rw [hdecided] at halike
    generalize statement s = x at halike ⊢
    cases halike with
    | @fails m cause t t' hm ht ht' =>
      obtain rfl : m = 0 := Nat.le_zero.mp hm
      cases ht
      exact ⟨_, rfl⟩
    | past _ h' =>
      cases h' with
      | syntactic hm ht =>
        have hlt := (List.getElem?_eq_some_iff.mp ht).1
        simp only [Stream.tokens, List.length_singleton] at hlt
        omega
  by_cases hends : s.EndsAt 0
  · exact hall none (iff_of_true hends rfl)
  · exact hall (some ⟨.inconsistentIndentation, 0⟩) (iff_of_false hends (by simp))

end Verbatim.Grammar
