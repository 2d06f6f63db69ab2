import Verbatim.Grammar.Statement
import Verbatim.Proofs.Grammar.Expression

/-!
# Statements hold the tokens that they were read from

Small statements are built from expressions alone. A compound statement yields its outline
if the parser for the statements inside it does.
-/

namespace Verbatim.Grammar

open Verbatim.Parser

/-! ## Expressions inside statements -/

theorem yields_aTest : YieldsExpr aTest :=
  yields_withRules fun _ h => h .test

theorem yields_anExpr : YieldsExpr anExpr :=
  yields_withRules fun _ h => h .expr

theorem yields_aNamedTest : YieldsExpr aNamedTest :=
  yields_withRules fun _ h => yields_namedTest h

theorem yields_aTestList : YieldsExpr aTestList :=
  yields_withRules fun _ h => yields_testList h

theorem yields_anExprList : YieldsExpr anExprList :=
  yields_withRules fun _ h => yields_exprList h

theorem yields_introduced {α : Type} {value : Parser α} {inside : α → Outline}
    (hvalue : Yields value fun a => [inside a]) :
    Yields (introduced value) fun part => [part.outline inside] := by
  apply Yields.of_start
  intro s₀
  apply Extends.andThen yields_bump
  intro token
  apply Extends.andThen hvalue
  intro value
  exact .part (by simp) fun span => (by simp [Introduced.outline])

/-! ## Values -/

/-- An expression that stands as a value is a node of its own around the expression. -/
theorem reads_value {s u : Stream} {e : Expr} (h : s.Reads [e.outline] u) :
    s.Reads [(Value.single e).outline] u := by
  obtain ⟨_, hspan, hsolid⟩ := h.inside
  have htokens : Outline.tokensOf [e.outline] = Outline.tokensOf e.pieces := by
    simp [Outline.tokensOf, Outline.tokens, Expr.outline]
  rw [← htokens] at hspan hsolid
  exact h.node (n := .value (.single e)) hspan hsolid

/-- A list of tests is the list that stands as a value, with the same pieces and span. -/
theorem reads_list {s u : Stream} {span : Span} {items : Separated Expr}
    {trailing : Option Token}
    (h : s.Reads [(Expr.sequence span .testList items trailing).outline] u) :
    s.Reads [(Value.list span items trailing).outline] u := by
  have hpieces : (Expr.sequence span .testList items trailing).pieces =
      (Value.list span items trailing).pieces := by
    simp only [Expr.pieces, Value.pieces]
  rw [Expr.outline, hpieces] at h
  obtain ⟨hread, hspan, hsolid⟩ := h.inside
  exact hread.node (n := .value (.list span items trailing)) hspan hsolid

theorem yields_listValue : Yields listValue fun v => [v.outline] := by
  apply Yields.of_extends
  intro s₀
  apply Extends.andThen (yields_withRules fun _ h => yields_testOrStarList h)
  intro value s v u hs hp
  split at hp
  · cases pure_eq_ok.mp hp
    exact reads_list hs
  · cases pure_eq_ok.mp hp
    exact reads_value hs

theorem yields_single {p : Parser Expr} (hp : YieldsExpr p) :
    Yields (Value.single <$> p) fun v => [v.outline] := by
  intro s v u h
  rw [← bind_pure_comp] at h
  obtain ⟨e, _, he, h⟩ := bind_eq_ok.mp h
  cases pure_eq_ok.mp h
  exact reads_value (hp s e _ he)

theorem yields_assignedValue : Yields assignedValue fun v => [v.outline] := by
  apply Yields.of_extends
  intro s₀
  apply Extends.look (peeks_isAt _)
  intro b
  refine .ite ?_ yields_listValue.extends
  apply Extends.andThen (yields_withRules fun _ h => yields_yieldExpr h)
  intro value s v u hs hp
  cases pure_eq_ok.mp hp
  exact reads_value hs

/-! ## Small statements -/

section Small

attribute [local simp] Introduced.optionPieces_eq Small.outline Small.pieces

variable {s₀ : Stream}

/-- A value that is the only target of an assignment stands in it as an expression. -/
theorem extends_singleTarget (cause : SyntaxCause) (first : Value) :
    Extends s₀ [first.outline] (singleTarget cause first) fun e => [e.outline] := by
  intro s e u hs hp
  cases first with
  | single target =>
    cases pure_eq_ok.mp hp
    exact hs.inside.1
  | list span items trailing => exact absurd hp fail_ne_ok

theorem extends_annotatedAssignment (first : Value) :
    Extends s₀ [first.outline] (annotatedAssignment s₀.current.span.start first)
      fun s => [s.outline] := by
  refine .bind (extends_singleTarget _ first) fun target => .andThen yields_bump fun colon => ?_
  apply Extends.andThen yields_aTest
  intro typeHint
  apply Extends.andThen (yields_optional (yields_startedBy (yields_introduced
    yields_assignedValue)))
  intro value
  apply Extends.node (by simp)
  intro span
  refine ⟨.small (.annAssign span target colon typeHint value), ?_, rfl⟩
  simp

theorem extends_augmentedAssignment (first : Value) :
    Extends s₀ [first.outline] (augmentedAssignment s₀.current.span.start first)
      fun s => [s.outline] := by
  refine .bind (extends_singleTarget _ first) fun target => .andThen yields_bump fun op => ?_
  have hlast : ∀ value : Value, Extends s₀ ([target.outline] ++ [.token op] ++ [value.outline])
      (do return Small.augAssign (← spanFrom s₀.current.span.start) target op value)
      fun s => [s.outline] := by
    refine fun value => .node (by simp) fun span =>
      ⟨.small (.augAssign span target op value), ?_, rfl⟩
    simp
  apply Extends.look (peeks_isAt _)
  intro b
  apply Extends.ite
  · exact .andThen yields_assignedValue hlast
  · exact .andThen (yields_single yields_aTestList) hlast

theorem extends_assignment (first : Value) :
    Extends s₀ [first.outline] (assignment s₀.current.span.start first)
      fun s => [s.outline] := by
  apply Extends.andThen yields_bump
  intro equal
  apply Extends.andThen (yields_separated yields_assignedValue)
  intro rest
  apply Extends.node (by simp)
  intro span
  refine ⟨.small (.assign span first equal rest), ?_, rfl⟩
  simp

theorem yields_expressionStatement : Yields expressionStatement fun s => [s.outline] := by
  apply Yields.of_start
  intro s₀
  apply Extends.andThen yields_assignedValue
  intro first
  apply Extends.look peeks_peek
  intro kind
  refine .ite ?_ (.ite ?_ (.ite ?_ (.pure rfl)))
  · exact extends_annotatedAssignment first
  · exact extends_augmentedAssignment first
  · exact extends_assignment first

theorem extends_simpleKeyword (kind : SimpleKeyword) {word : TokenKind}
    (h : s₀.current.kind = word) (hword : word.isZeroWidth = false) :
    Extends s₀ [] (simpleKeyword kind) fun s => [s.outline] :=
  .tokenNode (n := .small (.keyword kind s₀.current)) h hword rfl rfl

theorem extends_returnStatement (h : s₀.current.kind = .kwReturn) :
    Extends s₀ [] returnStatement fun s => [s.outline] := by
  have hsolid := Outline.isSolid_token h rfl
  apply Extends.start
  apply Extends.bumpAtStart
  apply Extends.andThen (yields_optional (yields_startedBy yields_listValue))
  intro value
  apply Extends.node (by simp [hsolid])
  intro span
  refine ⟨.small (.return span s₀.current value), ?_, rfl⟩
  simp

theorem yields_raised : Yields raised Raised.pieces := by
  apply Yields.of_extends
  intro s₀
  apply Extends.andThen yields_aTest
  intro exception
  apply Extends.andThen (yields_optional (yields_startedBy (yields_introduced yields_aTest)))
  intro cause
  apply Extends.pure
  simp [Raised.pieces]

theorem extends_raiseStatement (h : s₀.current.kind = .kwRaise) :
    Extends s₀ [] raiseStatement fun s => [s.outline] := by
  have hsolid := Outline.isSolid_token h rfl
  apply Extends.start
  apply Extends.bumpAtStart
  apply Extends.andThen (yields_optional (yields_startedBy yields_raised))
  intro raised
  apply Extends.node (by simp [hsolid])
  intro span
  refine ⟨.small (.raise span s₀.current raised), ?_, rfl⟩
  simp

theorem yields_delStatement : Yields delStatement fun s => [s.outline] := by
  apply Yields.of_start
  intro s₀
  apply Extends.andThen yields_bump
  intro keyword
  apply Extends.andThen yields_anExprList
  intro targets
  apply Extends.node (by simp)
  intro span
  refine ⟨.small (.del span keyword targets), ?_, rfl⟩
  simp

theorem extends_scopeStatement (kind : ScopeKind) {word : TokenKind}
    (h : s₀.current.kind = word) (hword : word.isZeroWidth = false) :
    Extends s₀ [] (scopeStatement kind) fun s => [s.outline] := by
  have hsolid := Outline.isSolid_token h hword
  apply Extends.start
  apply Extends.bumpAtStart
  apply Extends.andThen (yields_separated (yields_expect _))
  intro names
  apply Extends.node (by simp [hsolid])
  intro span
  refine ⟨.small (.scope span kind s₀.current names), ?_, rfl⟩
  simp

theorem yields_assertStatement : Yields assertStatement fun s => [s.outline] := by
  apply Yields.of_start
  intro s₀
  apply Extends.andThen yields_bump
  intro keyword
  apply Extends.andThen yields_aTest
  intro test
  apply Extends.andThen (yields_optional (yields_startedBy (yields_introduced yields_aTest)))
  intro message
  apply Extends.node (by simp)
  intro span
  refine ⟨.small (.assert span keyword test message), ?_, rfl⟩
  simp

/-! ## Imports -/

theorem yields_dottedName : Yields dottedName fun name => [name.outline] := by
  apply Yields.of_start
  intro s₀
  apply Extends.andThen (yields_separated (yields_expect _))
  intro parts
  refine .part ?_ fun span => ?_
  · cases parts <;> simp [Separated.pieces]
  · simp [DottedName.outline, DottedName.pieces]

theorem yields_optionalAlias :
    Yields optionalAlias fun part => part.elim [] fun part => [part.outline .token] :=
  yields_optional (yields_startedBy (yields_introduced (yields_expect _)))

theorem yields_dottedAsName : Yields dottedAsName fun name => [name.outline] := by
  apply Yields.of_start
  intro s₀
  apply Extends.andThen yields_dottedName
  intro name
  apply Extends.andThen yields_optionalAlias
  intro asName
  apply Extends.part (by simp)
  intro span
  simp [DottedAsName.outline, DottedAsName.pieces]

theorem extends_importStatement (h : s₀.current.kind = .kwImport) :
    Extends s₀ [] importStatement fun s => [s.outline] := by
  have hsolid := Outline.isSolid_token h rfl
  apply Extends.start
  apply Extends.bumpAtStart
  apply Extends.andThen (yields_separated yields_dottedAsName)
  intro names
  apply Extends.node (by simp [hsolid])
  intro span
  refine ⟨.small (.importModules span s₀.current names), ?_, rfl⟩
  simp

theorem yields_importAsName : Yields importAsName fun name => [name.outline] := by
  apply Yields.of_start
  intro s₀
  apply Extends.andThen (yields_expect _)
  intro name
  apply Extends.andThen yields_optionalAlias
  intro asName
  apply Extends.part (by simp)
  intro span
  simp [ImportAsName.outline, ImportAsName.pieces]

theorem yields_bareNames : Yields bareNames fun targets => [targets.outline] := by
  apply Yields.of_start
  intro s₀
  apply Extends.andThen (yields_separated yields_importAsName)
  intro names
  refine .part ?_ fun span => ?_
  · cases names <;> simp [Separated.pieces]
  · simp [ImportTargets.outline]

theorem yields_enclosedNames : Yields enclosedNames fun targets => [targets.outline] := by
  apply Yields.of_start
  intro s₀
  apply Extends.andThen yields_bump
  intro opener
  apply Extends.andThen yields_importAsName
  intro first
  have hmore : ∀ a : ImportAsName, Peeks (do return (← peek) != .rightParen) :=
    fun _ => peeks_peek.bind fun _ => peeks_pure _
  refine .bind (.separatedFrom _ hmore yields_importAsName first) fun r => ?_
  apply Extends.andThen (yields_expect _)
  intro closer
  apply Extends.part (by simp)
  intro span
  simp [ImportTargets.outline]

theorem yields_importTargets : Yields importTargets fun targets => [targets.outline] := by
  apply Yields.of_extends
  intro s₀
  apply Extends.look peeks_peek
  intro kind
  split
  · exact .andThen yields_bump fun star => .pure rfl
  · exact yields_enclosedNames.extends
  · exact yields_bareNames.extends

theorem yields_importFromStatement : Yields importFromStatement fun s => [s.outline] := by
  apply Yields.of_start
  intro s₀
  apply Extends.andThen yields_bump
  intro fromToken
  apply Extends.andThen (yields_many (yields_startedBy yields_bump))
  intro dots
  apply Extends.andThen (yields_optional (yields_startedBy yields_dottedName))
  intro module
  apply Extends.andKnow (yields_expect _) expect_eq_ok
  intro importToken himport
  have hsolid := Outline.isSolid_token himport rfl
  apply Extends.andThen yields_importTargets
  intro targets
  apply Extends.node (by simp [hsolid])
  intro span
  refine ⟨.small (.importFrom span fromToken dots module importToken targets), ?_, rfl⟩
  cases module <;> simp [List.map_eq_flatMap]

theorem yields_small : Yields small fun s => [s.outline] := by
  apply Yields.of_extends
  intro s₀
  apply Extends.peekAtStart
  split
  · next h => exact extends_simpleKeyword .pass h rfl
  · next h => exact extends_simpleKeyword .break h rfl
  · next h => exact extends_simpleKeyword .continue h rfl
  · next h => exact extends_returnStatement h
  · next h => exact extends_raiseStatement h
  · exact yields_delStatement.extends
  · next h => exact extends_scopeStatement .global h rfl
  · next h => exact extends_scopeStatement .nonlocal h rfl
  · exact yields_assertStatement.extends
  · next h => exact extends_importStatement h
  · exact yields_importFromStatement.extends
  · exact yields_expressionStatement.extends

end Small

/-! ## Lines -/

theorem yields_lineBreak : Yields lineBreak Outline.ofOption := by
  apply Yields.of_extends
  intro s₀
  apply Extends.look peeks_peek
  intro kind
  split
  · exact .andThen yields_bump fun t => .pure rfl
  · exact .pure rfl
  · exact .pure rfl
  · exact .fail

theorem yields_line : Yields line fun l => [l.outline] := by
  apply Yields.of_start
  intro s₀
  apply Extends.andThen yields_small
  intro first
  have hmore : ∀ a : Small, Peeks (do return ! endsLine (← peek)) :=
    fun _ => peeks_peek.bind fun _ => peeks_pure _
  refine .bind (.separatedFrom [] hmore yields_small first) fun r => ?_
  apply Extends.andThen (yields_eat _)
  intro typeComment
  apply Extends.andThen yields_lineBreak
  intro newline
  refine .node ?_ fun span => ⟨.line ⟨span, r.1, r.2, typeComment, newline⟩, ?_, rfl⟩
  · rcases r with ⟨statements, trailing⟩
    cases statements <;> simp [Separated.pieces]
  · simp [Line.outline, Line.pieces]

/-! ## Compound statements -/

theorem yields_decorator : Yields decorator fun d => [d.outline] := by
  apply Yields.of_start
  intro s₀
  apply Extends.andThen yields_bump
  intro mark
  apply Extends.andThen yields_aNamedTest
  intro expression
  apply Extends.andThen (yields_eat _)
  intro comment
  apply Extends.andThen (yields_expect _)
  intro newline
  apply Extends.part (by simp)
  intro span
  simp [Decorator.outline, Decorator.pieces]

theorem yields_withItem : Yields withItem fun item => [item.outline] := by
  apply Yields.of_start
  intro s₀
  apply Extends.andThen yields_aTest
  intro context
  apply Extends.andThen (yields_optional (yields_startedBy (yields_introduced yields_anExpr)))
  intro target
  apply Extends.part (by simp)
  intro span
  simp [WithItem.outline, WithItem.pieces, Introduced.optionPieces_eq]

theorem yields_caught : Yields caught Caught.pieces := by
  apply Yields.of_extends
  intro s₀
  apply Extends.andThen yields_aTest
  intro test
  apply Extends.andThen yields_optionalAlias
  intro asName
  apply Extends.pure
  simp [Caught.pieces, Introduced.optionPieces_eq]

theorem yields_classArguments : Yields classArguments ClassArguments.pieces := by
  apply Yields.of_extends
  intro s₀
  apply Extends.andThen (yields_bracketed (yields_withRules fun _ h => yields_argList h) _)
  intro r
  apply Extends.pure
  simp [ClassArguments.pieces]

section Statement

attribute [local simp] Stmt.outline Stmt.pieces Body.outline ElifClause.outline
  BlockClause.outline ExceptClause.outline stmtsPieces_eq elifsPieces_eq blockClausePieces_eq
  handlersPieces_eq

variable {statement : Parser Stmt} {s₀ : Stream}
  (hstatement : Yields statement fun s => [s.outline])

include hstatement

theorem yields_body : Yields (body statement) fun b => [b.outline] := by
  apply Yields.of_extends
  intro s₀
  apply Extends.look peeks_peek
  intro kind
  apply Extends.ite
  · refine Yields.extends (.of_start fun s₀ => .andThen (yields_eat _) fun typeComment => ?_)
    apply Extends.andKnow (yields_expect _) expect_eq_ok
    intro newline hnewline
    -- the markers of a block have no text, so it is the line break that makes it a solid node
    have hsolid := Outline.isSolid_token hnewline rfl
    apply Extends.look (peeks_isAt _)
    intro b
    refine .ite ?_ .fail
    apply Extends.andThen yields_bump
    intro indent
    apply Extends.andThen (yields_many (yields_startedBy hstatement))
    intro statements
    apply Extends.andThen (yields_expect _)
    intro dedent
    apply Extends.node (by simp [hsolid])
    intro span
    refine ⟨.block span statements, ?_, rfl⟩
    simp
  · exact .andThen yields_line fun l => .pure (by simp)

theorem yields_blockClause : Yields (blockClause statement) fun clause => [clause.outline] := by
  apply Yields.of_start
  intro s₀
  apply Extends.andThen yields_bump
  intro keyword
  apply Extends.andThen (yields_expect _)
  intro colon
  apply Extends.andThen (yields_body hstatement)
  intro b
  exact .part (by simp) fun span => (by simp)

theorem yields_elseClause :
    Yields (elseClause statement) fun clause => clause.elim [] fun clause => [clause.outline] :=
  yields_optional (yields_startedBy (yields_blockClause hstatement))

theorem yields_elifClause : Yields (elifClause statement) fun clause => [clause.outline] := by
  apply Yields.of_start
  intro s₀
  apply Extends.andThen yields_bump
  intro keyword
  apply Extends.andThen yields_aNamedTest
  intro condition
  apply Extends.andThen (yields_expect _)
  intro colon
  apply Extends.andThen (yields_body hstatement)
  intro b
  exact .part (by simp) fun span => (by simp)

theorem yields_ifStatement : Yields (ifStatement statement) fun s => [s.outline] := by
  apply Yields.of_start
  intro s₀
  apply Extends.andThen yields_bump
  intro ifToken
  apply Extends.andThen yields_aNamedTest
  intro condition
  apply Extends.andThen (yields_expect _)
  intro colon
  apply Extends.andThen (yields_body hstatement)
  intro b
  apply Extends.andThen (yields_many (yields_startedBy (yields_elifClause hstatement)))
  intro elifs
  apply Extends.andThen (yields_elseClause hstatement)
  intro orelse
  apply Extends.node (by simp)
  intro span
  refine ⟨.stmt (.ifElse span ifToken condition colon b elifs orelse), ?_, rfl⟩
  simp

theorem yields_whileStatement : Yields (whileStatement statement) fun s => [s.outline] := by
  apply Yields.of_start
  intro s₀
  apply Extends.andThen yields_bump
  intro whileToken
  apply Extends.andThen yields_aNamedTest
  intro condition
  apply Extends.andThen (yields_expect _)
  intro colon
  apply Extends.andThen (yields_body hstatement)
  intro b
  apply Extends.andThen (yields_elseClause hstatement)
  intro orelse
  apply Extends.node (by simp)
  intro span
  refine ⟨.stmt (.whileLoop span whileToken condition colon b orelse), ?_, rfl⟩
  simp

theorem extends_forStatement (async : Option Token) :
    Extends s₀ (Outline.ofOption async)
      (forStatement statement s₀.current.span.start async) fun s => [s.outline] := by
  apply Extends.andThen (yields_expect _)
  intro forToken
  apply Extends.andThen yields_anExprList
  intro targets
  apply Extends.andThen (yields_expect _)
  intro inToken
  apply Extends.andThen yields_aTestList
  intro source
  apply Extends.andThen (yields_expect _)
  intro colon
  apply Extends.andThen (yields_body hstatement)
  intro b
  apply Extends.andThen (yields_elseClause hstatement)
  intro orelse
  apply Extends.node (by simp)
  intro span
  refine ⟨.stmt (.forLoop span async forToken targets inToken source colon b orelse), ?_, rfl⟩
  simp

theorem yields_exceptClause : Yields (exceptClause statement) fun clause => [clause.outline] := by
  apply Yields.of_start
  intro s₀
  apply Extends.andThen yields_bump
  intro keyword
  apply Extends.andThen (yields_optional (yields_startedBy yields_caught))
  intro caught
  apply Extends.andThen (yields_expect _)
  intro colon
  apply Extends.andThen (yields_body hstatement)
  intro b
  apply Extends.part (by simp)
  intro span
  cases caught <;> simp

theorem yields_tryStatement : Yields (tryStatement statement) fun s => [s.outline] := by
  apply Yields.of_start
  intro s₀
  apply Extends.andThen yields_bump
  intro tryToken
  apply Extends.andThen (yields_expect _)
  intro colon
  apply Extends.andThen (yields_body hstatement)
  intro b
  apply Extends.andThen (yields_many (yields_startedBy (yields_exceptClause hstatement)))
  intro handlers
  -- an `else` is looked for only after a handler, and both ways go on alike from there
  have hrest : ∀ orelse : Option BlockClause, Extends s₀
      ([] ++ [.token tryToken] ++ [.token colon] ++ [b.outline] ++
        handlers.flatMap (fun clause => [clause.outline]) ++
        orelse.elim [] fun clause => [clause.outline])
      (do
        let finalizer ← Parser.optional (.onKind .kwFinally (blockClause statement))
        if handlers.isEmpty && finalizer.isNone then Parser.fail .expectedHandler
        else
          let span ← spanFrom s₀.current.span.start
          return Stmt.tryBlock span tryToken colon b handlers orelse finalizer)
      fun s => [s.outline] := by
    refine fun orelse => .andThen
      (yields_optional (yields_startedBy (yields_blockClause hstatement))) fun finalizer => ?_
    refine .ite .fail (.node (by simp) fun span => ?_)
    refine ⟨.stmt (.tryBlock span tryToken colon b handlers orelse finalizer), ?_, rfl⟩
    simp
  refine .ite (.andThen ?_ hrest) (.andThen (yields_elseClause hstatement) hrest)
  exact .of_extends fun s₀ => .pure rfl

theorem extends_withStatement (async : Option Token) :
    Extends s₀ (Outline.ofOption async)
      (withStatement statement s₀.current.span.start async) fun s => [s.outline] := by
  apply Extends.andThen (yields_expect _)
  intro withToken
  apply Extends.andThen (yields_separated yields_withItem)
  intro items
  apply Extends.andThen (yields_expect _)
  intro colon
  apply Extends.andThen (yields_body hstatement)
  intro b
  apply Extends.node (by simp)
  intro span
  refine ⟨.stmt (.withBlock span async withToken items colon b), ?_, rfl⟩
  simp

theorem extends_funcDef (decorators : List Decorator) (async : Option Token) :
    Extends s₀ (decorators.map Decorator.outline ++ Outline.ofOption async)
      (funcDef statement s₀.current.span.start decorators async) fun s => [s.outline] := by
  apply Extends.andThen (yields_expect _)
  intro keyword
  apply Extends.andThen (yields_expect _)
  intro name
  apply Extends.andThen (yields_expect _)
  intro opener
  apply Extends.andThen (yields_optional (yields_startedBy (yields_withRules fun _ h =>
    yields_params h true _)))
  intro params
  apply Extends.andThen (yields_expect _)
  intro closer
  apply Extends.andThen (yields_optional (yields_startedBy (yields_introduced yields_aTest)))
  intro returns
  apply Extends.andThen (yields_expect _)
  intro colon
  apply Extends.andThen (yields_body hstatement)
  intro b
  apply Extends.node (by simp)
  intro span
  refine ⟨.stmt (.funcDef span decorators async keyword name opener params closer returns
    colon b), ?_, rfl⟩
  cases params <;>
    simp [Introduced.optionPieces_eq, Params.outline]

theorem extends_classDef (decorators : List Decorator) :
    Extends s₀ (decorators.map Decorator.outline)
      (classDef statement s₀.current.span.start decorators) fun s => [s.outline] := by
  apply Extends.andThen (yields_expect _)
  intro keyword
  apply Extends.andThen (yields_expect _)
  intro name
  apply Extends.andThen (yields_optional (yields_startedBy yields_classArguments))
  intro arguments
  apply Extends.andThen (yields_expect _)
  intro colon
  apply Extends.andThen (yields_body hstatement)
  intro b
  apply Extends.node (by simp)
  intro span
  refine ⟨.stmt (.classDef span decorators keyword name arguments colon b), ?_, rfl⟩
  cases arguments <;> simp

theorem yields_asyncStatement : Yields (asyncStatement statement) fun s => [s.outline] := by
  apply Yields.of_start
  intro s₀
  apply Extends.andThen yields_bump
  intro async
  apply Extends.look peeks_peek
  intro kind
  split
  · exact extends_funcDef hstatement [] (some async)
  · exact extends_forStatement hstatement (some async)
  · exact extends_withStatement hstatement (some async)
  · exact .fail

theorem yields_decorated : Yields (decorated statement) fun s => [s.outline] := by
  apply Yields.of_start
  intro s₀
  apply Extends.andThen (yields_many (yields_startedBy yields_decorator))
  intro decorators
  apply Extends.look peeks_peek
  intro kind
  rw [List.nil_append, ← List.map_eq_flatMap]
  split
  · have hdef : Extends s₀ (decorators.map Decorator.outline ++ Outline.ofOption none) _ _ :=
      extends_funcDef hstatement decorators none
    rwa [Outline.ofOption, Option.toList_none, List.map_nil, List.append_nil] at hdef
  · exact extends_classDef hstatement decorators
  · apply Extends.andThen yields_bump
    intro async
    apply Extends.look (peeks_isAt _)
    intro b
    refine .ite ?_ .fail
    exact extends_funcDef hstatement decorators (some async)
  · exact .fail

theorem yields_statementBody : Yields (statementBody statement) fun s => [s.outline] := by
  apply Yields.of_extends
  intro s₀
  apply Extends.look peeks_peek
  intro kind
  split
  · exact (yields_ifStatement hstatement).extends
  · exact (yields_whileStatement hstatement).extends
  · exact Yields.extends (.of_start fun s₀ => extends_forStatement hstatement none)
  · exact (yields_tryStatement hstatement).extends
  · exact Yields.extends (.of_start fun s₀ => extends_withStatement hstatement none)
  · exact Yields.extends (.of_start fun s₀ => extends_funcDef hstatement [] none)
  · exact Yields.extends (.of_start fun s₀ => extends_classDef hstatement [])
  · exact (yields_decorated hstatement).extends
  · exact (yields_asyncStatement hstatement).extends
  · exact .fail
  · exact .andThen yields_line fun l => .pure rfl

end Statement

/-! ## Tying the knot -/

theorem yields_statementUpTo (n : Nat) : Yields (statementUpTo n) fun s => [s.outline] := by
  induction n with
  | zero =>
    intro s stmt u h
    exact absurd h fail_ne_ok
  | succ n ih => exact yields_statementBody ih

theorem yields_statement : Yields statement fun s => [s.outline] := by
  intro s stmt u h
  exact yields_statementUpTo _ s stmt u h

end Verbatim.Grammar
