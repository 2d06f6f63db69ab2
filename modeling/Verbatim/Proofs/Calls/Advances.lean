import Verbatim.Proofs.Calls.Statement

/-!
# Grammar functions take a token

Each function of the grammar that parses a part of a tree takes at least one token. Most of
them read the pieces of what they return, which is never without a token. The others begin with
a token that they take whatever it is, as they are only called where it is the right one.
-/

namespace Verbatim.Grammar

open Verbatim.Parser

/-- The functions of the grammar that parse a node or another part of a tree. These are not the
ones that look for an optional part, that go on with a list whose first element is parsed, or that
take the line breaks at the end of a source. -/
inductive PartParser : {α : Type} → Parser α → Prop
  | token (kind : TokenKind) : PartParser (expect kind)
  | rule (rule : Rule) : PartParser (grammarRules rule)
  | commaList {element : Parser Expr} (kind : SequenceKind) (continues : TokenKind → Bool)
      (h : PartParser element) : PartParser (commaList kind continues element)
  | prefixed {operand : Parser Expr} (kind : UnaryKind) (h : PartParser operand) :
      PartParser (prefixed kind operand)
  | operation {operand : Parser Expr} (start : Nat) (kind : BinaryKind) (h : PartParser operand) :
      PartParser (operation start kind operand)
  | leftFold {operand : Parser Expr} (level : FoldLevel) (h : PartParser operand) :
      PartParser (leftFold level operand)
  | notIn {operand : Parser Expr} (start : Nat) (h : PartParser operand) :
      PartParser (notIn start operand)
  | isOrIsNot {operand : Parser Expr} (start : Nat) (h : PartParser operand) :
      PartParser (isOrIsNot start operand)
  | comparisons {operand : Parser Expr} (h : PartParser operand) :
      PartParser (comparisons operand)
  | bracketed {body : Parser Expr} (closer : TokenKind) (h : PartParser body) :
      PartParser (bracketed closer body)
  | starExpr : PartParser (starExpr grammarRules)
  | testOrStar : PartParser (testOrStar grammarRules)
  | exprOrStar : PartParser (exprOrStar grammarRules)
  | testList : PartParser (testList grammarRules)
  | testOrStarList : PartParser (testOrStarList grammarRules)
  | exprList : PartParser (exprList grammarRules)
  | starredTest {plain : Parser Expr} (h : PartParser plain) :
      PartParser (starredTest grammarRules plain)
  | typeList : PartParser (typeList grammarRules)
  | namedTest : PartParser (namedTest grammarRules)
  | namedOrStar : PartParser (namedOrStar grammarRules)
  | loop : PartParser (loop grammarRules (nextClause grammarRules))
  | guardClause : PartParser (guardClause grammarRules (nextClause grammarRules))
  | comprehension (start : Nat) (element : Expr) :
      PartParser (comprehension grammarRules start element)
  | testListComp : PartParser (testListComp grammarRules)
  | braceElement (mode : BraceMode) : PartParser (braceElement grammarRules mode)
  | braceDisplay : PartParser (braceDisplay grammarRules)
  | argument : PartParser (argument grammarRules)
  | argList : PartParser (argList grammarRules)
  | sliceStep : PartParser (sliceStep grammarRules)
  | sliceFrom (start : Nat) (lower : Option Expr) : PartParser (sliceFrom grammarRules start lower)
  | subscript : PartParser (subscript grammarRules)
  | subscriptList : PartParser (subscriptList grammarRules)
  | yieldExpr : PartParser (yieldExpr grammarRules)
  | typeHint : PartParser (typeHint grammarRules)
  | declarator (typed : Bool) : PartParser (declarator grammarRules typed)
  | variadicParam (typed : Bool) : PartParser (variadicParam grammarRules typed)
  | param (typed : Bool) : PartParser (param grammarRules typed)
  | params (typed : Bool) (closer : TokenKind) : PartParser (params grammarRules typed closer)
  | parenBody : PartParser (parenBody grammarRules)
  | stringLiterals : PartParser stringLiterals
  | display {body : Parser Expr} (kind : DisplayKind) (closer : TokenKind) (h : PartParser body) :
      PartParser (display kind closer body)
  | atom : PartParser (atom grammarRules)
  | member : PartParser member
  | call : PartParser (call grammarRules)
  | index : PartParser (index grammarRules)
  | appliedAtom : PartParser (appliedAtom grammarRules)
  | power : PartParser (power grammarRules)
  | factor : PartParser (factor grammarRules)
  | expr : PartParser (expr grammarRules)
  | notTest : PartParser (notTest grammarRules)
  | orTest : PartParser (orTest grammarRules)
  | lambda {body : Parser Expr} (h : PartParser body) : PartParser (lambda grammarRules body)
  | test : PartParser (test grammarRules)
  | testNoConditional : PartParser (testNoConditional grammarRules)
  | aTest : PartParser aTest
  | anExpr : PartParser anExpr
  | aNamedTest : PartParser aNamedTest
  | aTestList : PartParser aTestList
  | anExprList : PartParser anExprList
  | introduced {α : Type} {value : Parser α} (h : PartParser value) :
      PartParser (introduced value)
  | listValue : PartParser listValue
  | assignedValue : PartParser assignedValue
  | annotatedAssignment (start : Nat) (first : Value) :
      PartParser (annotatedAssignment start first)
  | augmentedAssignment (start : Nat) (first : Value) :
      PartParser (augmentedAssignment start first)
  | assignment (start : Nat) (first : Value) : PartParser (assignment start first)
  | expressionStatement : PartParser expressionStatement
  | simpleKeyword (kind : SimpleKeyword) : PartParser (simpleKeyword kind)
  | returnStatement : PartParser returnStatement
  | raised : PartParser raised
  | raiseStatement : PartParser raiseStatement
  | delStatement : PartParser delStatement
  | scopeStatement (kind : ScopeKind) : PartParser (scopeStatement kind)
  | assertStatement : PartParser assertStatement
  | dottedName : PartParser dottedName
  | dottedAsName : PartParser dottedAsName
  | importStatement : PartParser importStatement
  | importAsName : PartParser importAsName
  | bareNames : PartParser bareNames
  | enclosedNames : PartParser enclosedNames
  | importTargets : PartParser importTargets
  | importFromStatement : PartParser importFromStatement
  | small : PartParser small
  | line : PartParser line
  | decorator : PartParser decorator
  | withItem : PartParser withItem
  | caught : PartParser caught
  | classArguments : PartParser classArguments
  | body : PartParser (body statement)
  | blockClause : PartParser (blockClause statement)
  | elifClause : PartParser (elifClause statement)
  | ifStatement : PartParser (ifStatement statement)
  | whileStatement : PartParser (whileStatement statement)
  | forStatement (start : Nat) (async : Option Token) :
      PartParser (forStatement statement start async)
  | exceptClause : PartParser (exceptClause statement)
  | tryStatement : PartParser (tryStatement statement)
  | withStatement (start : Nat) (async : Option Token) :
      PartParser (withStatement statement start async)
  | funcDef (start : Nat) (decorators : List Decorator) (async : Option Token) :
      PartParser (funcDef statement start decorators async)
  | classDef (start : Nat) (decorators : List Decorator) :
      PartParser (classDef statement start decorators)
  | asyncStatement : PartParser (asyncStatement statement)
  | decorated : PartParser (decorated statement)
  | statement : PartParser statement

/-! ## Expressions -/

section Expressions

variable {start : Nat} {rules : Rules}

section Operands

variable {operand : Parser Expr} (hoperand : Descends operand)

include hoperand

theorem advances_operation (kind : BinaryKind) : Advances (operation start kind operand) :=
  .bump fun _ => hoperand.bind fun _ => descends_close

theorem advances_notIn : Advances (notIn start operand) :=
  .bump fun _ => (advances_expect _).descends.bind fun _ => hoperand.bind fun _ => descends_close

theorem advances_isOrIsNot : Advances (isOrIsNot start operand) := by
  refine .bump fun first => (yields_eat _).descends.bind fun second => ?_
  cases second with
  | some second => exact hoperand.bind fun _ => descends_close
  | none => exact hoperand.bind fun _ => descends_close

theorem advances_leftFoldChoice (level : FoldLevel) {kind : TokenKind} {part : Parser Operation}
    (hpart : (level.operator? kind).map (operation start · operand) = some part) :
    Advances part := by
  obtain ⟨op, -, rfl⟩ := Option.map_eq_some_iff.mp hpart
  exact advances_operation hoperand op

theorem advances_comparisonChoice {kind : TokenKind} {part : Parser Operation}
    (hpart : comparisonChoice start operand kind = some part) : Advances part := by
  unfold comparisonChoice at hpart
  split at hpart
  · cases hpart
    exact advances_notIn hoperand
  · cases hpart
    exact advances_isOrIsNot hoperand
  · obtain ⟨op, -, rfl⟩ := Option.map_eq_some_iff.mp hpart
    exact advances_operation hoperand op

theorem advances_prefixed (kind : UnaryKind) : Advances (prefixed kind operand) :=
  .start fun _ => .bump fun _ => hoperand.bind fun _ => descends_close

theorem advances_bracketed (closer : TokenKind) : Advances (bracketed closer operand) :=
  .bump fun _ => (SameBelow.optional (b := 0) (rel_startedBy _ (.refl hoperand))).descends.bind
    fun _ => (advances_expect _).descends.bind fun _ => descends_pure _

end Operands

theorem advances_leftFold {operand : Parser Expr} (hoperand : Advances operand)
    (level : FoldLevel) : Advances (leftFold level operand) :=
  .start fun _ => hoperand.andThen fun _ =>
    (descends_many fun _ _ hpart =>
      (advances_leftFoldChoice hoperand.descends level hpart).descends).bind fun _ =>
        descends_pure _

theorem advances_comparisons {operand : Parser Expr} (hoperand : Advances operand) :
    Advances (comparisons operand) :=
  .start fun _ => hoperand.andThen fun _ =>
    (descends_many fun _ _ hpart =>
      (advances_comparisonChoice hoperand.descends hpart).descends).bind fun _ => descends_pure _

section Rules

variable (hrules : ∀ rule, YieldsExpr (rules rule))

include hrules

theorem advances_loop : Advances (loop rules (nextClause rules)) :=
  advances_of_piece (yields_loop hrules (yields_nextClause hrules))

theorem advances_comprehension (element : Expr) : Advances (comprehension rules start element) :=
  (advances_loop hrules).andThen fun _ => descends_close

theorem advances_sliceFrom (lower : Option Expr) : Advances (sliceFrom rules start lower) :=
  .bump fun _ => (yields_optionalTest hrules).descends.bind fun _ =>
    (yields_optional (yields_startedBy (yields_sliceStep hrules))).descends.bind fun _ =>
      descends_close

theorem advances_variadicParam (typed : Bool) : Advances (variadicParam rules typed) := by
  refine .start fun start => .bump fun star => ?_
  refine (yields_optional (yields_startedBy (yields_declarator hrules typed))).descends.bind ?_
  intro name
  cases name with
  | some name => exact descends_close
  | none => exact descends_close

theorem advances_starredTest {plain : Parser Expr} (hplain : Advances plain) :
    Advances (starredTest rules plain) := by
  refine peeks_peek.descends.andThen fun kind => ?_
  split
  · exact advances_prefixed (hrules .test).descends .star
  · exact advances_prefixed (hrules .test).descends .doubleStar
  · exact hplain

theorem advances_lambda {body : Parser Expr} (hbody : Descends body) :
    Advances (lambda rules body) :=
  .start fun _ => .bump fun _ =>
    (yields_optional (yields_startedBy (yields_params hrules false .colon))).descends.bind fun _ =>
      (advances_expect _).descends.bind fun _ => hbody.bind fun _ => descends_close

end Rules

end Expressions

/-! ## Small statements -/

section Small

variable {start : Nat} (first : Value)

theorem descends_singleTarget (cause : SyntaxCause) : Descends (singleTarget cause first) := by
  cases first with
  | single target => exact descends_pure target
  | list _ _ _ => exact (peeks_fail cause).descends

theorem advances_annotatedAssignment : Advances (annotatedAssignment start first) := by
  refine (descends_singleTarget first _).andThen fun target => .bump fun colon => ?_
  refine yields_aTest.descends.bind fun typeHint => ?_
  refine Descends.bind ?_ fun _ => descends_close
  exact (yields_optional (yields_startedBy (yields_introduced yields_assignedValue))).descends

theorem advances_augmentedAssignment : Advances (augmentedAssignment start first) := by
  refine (descends_singleTarget first _).andThen fun target => .bump fun op => ?_
  refine (peeks_isAt _).descends.bind fun atYield => ?_
  split
  · exact yields_assignedValue.descends.bind fun _ => descends_close
  · exact (yields_single yields_aTestList).descends.bind fun _ => descends_close

theorem advances_assignment : Advances (assignment start first) :=
  .bump fun _ => (yields_separated yields_assignedValue).descends.bind fun _ => descends_close

theorem advances_returnStatement : Advances returnStatement :=
  .start fun _ => .bump fun _ =>
    (yields_optional (yields_startedBy yields_listValue)).descends.bind fun _ => descends_close

theorem advances_raiseStatement : Advances raiseStatement :=
  .start fun _ => .bump fun _ =>
    (yields_optional (yields_startedBy yields_raised)).descends.bind fun _ => descends_close

theorem advances_scopeStatement (kind : ScopeKind) : Advances (scopeStatement kind) :=
  .start fun _ => .bump fun _ =>
    (yields_separated (yields_expect _)).descends.bind fun _ => descends_close

theorem advances_importStatement : Advances importStatement :=
  .start fun _ => .bump fun _ =>
    (yields_separated yields_dottedAsName).descends.bind fun _ => descends_close

end Small

/-! ## Compound statements -/

section Compound

variable {start : Nat} {part : Parser Stmt} (hpart : Yields part fun s => [s.outline])

include hpart

theorem descends_afterColon {α : Type} {f : Token → Body → Parser α}
    (hf : ∀ colon body, Descends (f colon body)) :
    Descends (expect .colon >>= fun colon => body part >>= f colon) :=
  (advances_expect _).descends.bind fun colon => (yields_body hpart).descends.bind (hf colon)

theorem advances_forStatement (async : Option Token) :
    Advances (forStatement part start async) := by
  refine .expect fun forToken => yields_anExprList.descends.bind fun targets => ?_
  refine (advances_expect _).descends.bind fun inToken => ?_
  refine yields_aTestList.descends.bind fun source => ?_
  refine descends_afterColon hpart fun colon body => ?_
  exact (yields_elseClause hpart).descends.bind fun orelse => descends_close

theorem advances_withStatement (async : Option Token) :
    Advances (withStatement part start async) :=
  .expect fun _ => (yields_separated yields_withItem).descends.bind fun _ =>
    descends_afterColon hpart fun _ _ => descends_close

theorem advances_funcDef (decorators : List Decorator) (async : Option Token) :
    Advances (funcDef part start decorators async) := by
  refine .expect fun keyword => (advances_expect _).descends.bind fun name => ?_
  refine (advances_expect _).descends.bind fun opener => ?_
  have hparams := yields_withRules fun _ h => yields_params h true .rightParen
  refine (yields_optional (yields_startedBy hparams)).descends.bind fun params => ?_
  refine (advances_expect _).descends.bind fun closer => ?_
  have hreturns : Descends (optional (.onKind .arrow (introduced aTest))) :=
    (yields_optional (yields_startedBy (yields_introduced yields_aTest))).descends
  refine hreturns.bind fun returns => ?_
  exact descends_afterColon hpart fun _ _ => descends_close

theorem advances_classDef (decorators : List Decorator) :
    Advances (classDef part start decorators) := by
  refine .expect fun keyword => (advances_expect _).descends.bind fun name => ?_
  refine (yields_optional (yields_startedBy yields_classArguments)).descends.bind ?_
  exact fun arguments => descends_afterColon hpart fun _ _ => descends_close

end Compound

/-! ## All of them -/

theorem yields_grammarRules (rule : Rule) : YieldsExpr (grammarRules rule) :=
  yields_withRules fun _ h => h rule

theorem PartParser.advances {α : Type} {p : Parser α} (h : PartParser p) : Advances p := by
  have hrules := yields_grammarRules
  have hstatement := yields_statement
  induction h with
  | token kind => exact advances_expect kind
  | rule rule => exact advances_of_piece (hrules rule)
  | commaList kind continues h ih =>
    exact .start fun _ => ih.andThen fun first =>
      (same_commaListFrom (b := 0) kind continues (.refl ih.descends) first).descends
  | prefixed kind h ih => exact advances_prefixed ih.descends kind
  | operation start kind h ih => exact advances_operation ih.descends kind
  | leftFold level h ih => exact advances_leftFold ih level
  | notIn start h ih => exact advances_notIn ih.descends
  | isOrIsNot start h ih => exact advances_isOrIsNot ih.descends
  | comparisons h ih => exact advances_comparisons ih
  | bracketed closer h ih => exact advances_bracketed ih.descends closer
  | starExpr => exact advances_of_piece (yields_starExpr hrules)
  | testOrStar => exact advances_of_piece (yields_testOrStar hrules)
  | exprOrStar => exact advances_of_piece (yields_exprOrStar hrules)
  | testList => exact advances_of_piece (yields_testList hrules)
  | testOrStarList => exact advances_of_piece (yields_testOrStarList hrules)
  | exprList => exact advances_of_piece (yields_exprList hrules)
  | starredTest h ih => exact advances_starredTest hrules ih
  | typeList => exact advances_of_piece (yields_typeList hrules)
  | namedTest => exact advances_of_piece (yields_namedTest hrules)
  | namedOrStar => exact advances_of_piece (yields_namedOrStar hrules)
  | loop => exact advances_loop hrules
  | guardClause =>
    exact advances_of_piece (yields_guardClause hrules (yields_nextClause hrules))
  | comprehension start element => exact advances_comprehension hrules element
  | testListComp => exact advances_of_piece (yields_testListComp hrules)
  | braceElement mode => exact advances_of_piece (yields_braceElement hrules mode)
  | braceDisplay => exact advances_of_piece (yields_braceDisplay hrules)
  | argument => exact advances_of_piece (yields_argument hrules)
  | argList => exact advances_of_piece (yields_argList hrules)
  | sliceStep =>
    refine (yields_sliceStep hrules).advances fun step => ?_
    cases step
    simp [Step.pieces]
  | sliceFrom start lower => exact advances_sliceFrom hrules lower
  | subscript => exact advances_of_piece (yields_subscript hrules)
  | subscriptList => exact advances_of_piece (yields_subscriptList hrules)
  | yieldExpr => exact advances_of_piece (yields_yieldExpr hrules)
  | typeHint => exact advances_of_piece (yields_typeHint hrules)
  | declarator typed => exact advances_of_piece (yields_declarator hrules typed)
  | variadicParam typed => exact advances_variadicParam hrules typed
  | param typed => exact advances_of_piece (yields_param hrules typed)
  | params typed closer => exact advances_of_piece (yields_params hrules typed closer)
  | parenBody => exact advances_of_piece (yields_parenBody hrules)
  | stringLiterals => exact advances_stringLiterals
  | display kind closer h ih =>
    exact .start fun _ => (advances_bracketed ih.descends closer).andThen fun _ => descends_close
  | atom => exact advances_of_piece (yields_atom hrules)
  | member => exact advances_of_piece yields_member
  | call => exact advances_of_piece (yields_call hrules)
  | index => exact advances_of_piece (yields_index hrules)
  | appliedAtom => exact advances_of_piece (yields_appliedAtom hrules)
  | power => exact advances_of_piece (yields_power hrules)
  | factor => exact advances_of_piece (yields_factor hrules)
  | expr => exact advances_of_piece (yields_expr hrules)
  | notTest => exact advances_of_piece (yields_notTest hrules)
  | orTest => exact advances_of_piece (yields_orTest hrules)
  | lambda h ih => exact advances_lambda hrules ih.descends
  | test => exact advances_of_piece (yields_test hrules)
  | testNoConditional => exact advances_of_piece (yields_testNoConditional hrules)
  | aTest => exact advances_of_piece yields_aTest
  | anExpr => exact advances_of_piece yields_anExpr
  | aNamedTest => exact advances_of_piece yields_aNamedTest
  | aTestList => exact advances_of_piece yields_aTestList
  | anExprList => exact advances_of_piece yields_anExprList
  | introduced h ih => exact .start fun _ => .bump fun _ => ih.descends.bind fun _ => descends_close
  | listValue => exact advances_of_piece yields_listValue
  | assignedValue => exact advances_of_piece yields_assignedValue
  | annotatedAssignment start first => exact advances_annotatedAssignment first
  | augmentedAssignment start first => exact advances_augmentedAssignment first
  | assignment start first => exact advances_assignment first
  | expressionStatement => exact advances_of_piece yields_expressionStatement
  | simpleKeyword kind => exact .bump fun _ => descends_pure _
  | returnStatement => exact advances_returnStatement
  | raised => exact yields_raised.advances fun raised => by simp [Raised.pieces]
  | raiseStatement => exact advances_raiseStatement
  | delStatement => exact advances_of_piece yields_delStatement
  | scopeStatement kind => exact advances_scopeStatement kind
  | assertStatement => exact advances_of_piece yields_assertStatement
  | dottedName => exact advances_of_piece yields_dottedName
  | dottedAsName => exact advances_of_piece yields_dottedAsName
  | importStatement => exact advances_importStatement
  | importAsName => exact advances_of_piece yields_importAsName
  | bareNames => exact advances_of_piece yields_bareNames
  | enclosedNames => exact advances_of_piece yields_enclosedNames
  | importTargets => exact advances_of_piece yields_importTargets
  | importFromStatement => exact advances_of_piece yields_importFromStatement
  | small => exact advances_of_piece yields_small
  | line => exact advances_of_piece yields_line
  | decorator => exact advances_of_piece yields_decorator
  | withItem => exact advances_of_piece yields_withItem
  | caught => exact yields_caught.advances fun caught => by simp [Caught.pieces]
  | classArguments =>
    exact yields_classArguments.advances fun arguments => by simp [ClassArguments.pieces]
  | body => exact advances_of_piece (yields_body hstatement)
  | blockClause => exact advances_of_piece (yields_blockClause hstatement)
  | elifClause => exact advances_of_piece (yields_elifClause hstatement)
  | ifStatement => exact advances_of_piece (yields_ifStatement hstatement)
  | whileStatement => exact advances_of_piece (yields_whileStatement hstatement)
  | forStatement start async => exact advances_forStatement hstatement async
  | exceptClause => exact advances_of_piece (yields_exceptClause hstatement)
  | tryStatement => exact advances_of_piece (yields_tryStatement hstatement)
  | withStatement start async => exact advances_withStatement hstatement async
  | funcDef start decorators async => exact advances_funcDef hstatement decorators async
  | classDef start decorators => exact advances_classDef hstatement decorators
  | asyncStatement => exact advances_of_piece (yields_asyncStatement hstatement)
  | decorated => exact advances_of_piece (yields_decorated hstatement)
  | statement => exact advances_of_piece hstatement

end Verbatim.Grammar
