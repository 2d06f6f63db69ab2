import Verbatim.Proofs.Calls.Advances
import Verbatim.Proofs.Calls.Functions.Expression
import Verbatim.Proofs.Decision.Run

/-!
# The functions of the grammar

All functions of the grammar as one family, from the roots down: statements call functions of the
expression grammar, and no function of that grammar calls back.
-/

namespace Verbatim.Grammar

open Verbatim.Parser

/-- The functions of the grammar, with what they are called with. -/
inductive Fn where
  | expression (f : ExprFn)
  | listValue
  | assignedValue
  | annotatedAssignment (start : Nat) (first : Value)
  | augmentedAssignment (start : Nat) (first : Value)
  | assignment (start : Nat) (first : Value)
  | expressionStatement
  | simpleKeyword (kind : SimpleKeyword)
  | returnStatement
  | raised
  | raiseStatement
  | delStatement
  | scopeStatement (kind : ScopeKind)
  | assertStatement
  | dottedName
  | optionalAlias
  | dottedAsName
  | importStatement
  | importAsName
  | bareNames
  | enclosedNames
  | importTargets
  | importFromStatement
  | small
  | lineBreak
  | line
  | decorator
  | withItem
  | caught
  | classArguments
  | body
  | blockClause
  | elseClause
  | elifClause
  | ifStatement
  | whileStatement
  | forStatement (start : Nat) (async : Option Token)
  | exceptClause
  | tryStatement
  | withStatement (start : Nat) (async : Option Token)
  | funcDef (start : Nat) (decorators : List Decorator) (async : Option Token)
  | classDef (start : Nat) (decorators : List Decorator)
  | asyncStatement
  | decorated
  | statement
  | newlines
  | root (entry : EntryPoint)

namespace Fn

abbrev Result : Fn → Type
  | expression f => f.Result
  | listValue | assignedValue => Value
  | raised => Raised
  | dottedName => DottedName
  | optionalAlias => Option AsName
  | dottedAsName => DottedAsName
  | importAsName => ImportAsName
  | bareNames | enclosedNames | importTargets => ImportTargets
  | lineBreak => Option Token
  | line => Line
  | decorator => Decorator
  | withItem => WithItem
  | caught => Caught
  | classArguments => ClassArguments
  | body => Body
  | blockClause => BlockClause
  | elseClause => Option BlockClause
  | elifClause => ElifClause
  | exceptClause => ExceptClause
  | ifStatement | whileStatement | forStatement _ _ | tryStatement | withStatement _ _
  | funcDef _ _ _ | classDef _ _ | asyncStatement | decorated | statement => Stmt
  | newlines => List Token
  | root entry => entry.Tree
  | _ => Small

/-- The functions as the grammar has them. -/
def run : Family Result
  | expression f => f.run
  | listValue => Grammar.listValue
  | assignedValue => Grammar.assignedValue
  | annotatedAssignment start first => Grammar.annotatedAssignment start first
  | augmentedAssignment start first => Grammar.augmentedAssignment start first
  | assignment start first => Grammar.assignment start first
  | expressionStatement => Grammar.expressionStatement
  | simpleKeyword kind => Grammar.simpleKeyword kind
  | returnStatement => Grammar.returnStatement
  | raised => Grammar.raised
  | raiseStatement => Grammar.raiseStatement
  | delStatement => Grammar.delStatement
  | scopeStatement kind => Grammar.scopeStatement kind
  | assertStatement => Grammar.assertStatement
  | dottedName => Grammar.dottedName
  | optionalAlias => Grammar.optionalAlias
  | dottedAsName => Grammar.dottedAsName
  | importStatement => Grammar.importStatement
  | importAsName => Grammar.importAsName
  | bareNames => Grammar.bareNames
  | enclosedNames => Grammar.enclosedNames
  | importTargets => Grammar.importTargets
  | importFromStatement => Grammar.importFromStatement
  | small => Grammar.small
  | lineBreak => Grammar.lineBreak
  | line => Grammar.line
  | decorator => Grammar.decorator
  | withItem => Grammar.withItem
  | caught => Grammar.caught
  | classArguments => Grammar.classArguments
  | body => Grammar.body Grammar.statement
  | blockClause => Grammar.blockClause Grammar.statement
  | elseClause => Grammar.elseClause Grammar.statement
  | elifClause => Grammar.elifClause Grammar.statement
  | ifStatement => Grammar.ifStatement Grammar.statement
  | whileStatement => Grammar.whileStatement Grammar.statement
  | forStatement start async => Grammar.forStatement Grammar.statement start async
  | exceptClause => Grammar.exceptClause Grammar.statement
  | tryStatement => Grammar.tryStatement Grammar.statement
  | withStatement start async => Grammar.withStatement Grammar.statement start async
  | funcDef start decorators async => Grammar.funcDef Grammar.statement start decorators async
  | classDef start decorators => Grammar.classDef Grammar.statement start decorators
  | asyncStatement => Grammar.asyncStatement Grammar.statement
  | decorated => Grammar.decorated Grammar.statement
  | statement => Grammar.statement
  | newlines => Grammar.newlines
  | root entry => entry.root

def rank : Fn → Nat
  | expression f => f.rank
  | caught | withItem | raised => 16
  | listValue => 18
  | assignedValue => 19
  | expressionStatement => 20
  | small => 21
  | line => 22
  | body | statement => 23
  | root _ => 24
  | elseClause | dottedAsName | importAsName | decorated => 1
  | bareNames => 2
  | importTargets => 3
  | _ => 0

section Code

variable (self : Family Result)

def smallCode : Parser Small := do
  match ← peek with
  | .kwPass => self (.simpleKeyword .pass)
  | .kwBreak => self (.simpleKeyword .break)
  | .kwContinue => self (.simpleKeyword .continue)
  | .kwReturn => self .returnStatement
  | .kwRaise => self .raiseStatement
  | .kwDel => self .delStatement
  | .kwGlobal => self (.scopeStatement .global)
  | .kwNonlocal => self (.scopeStatement .nonlocal)
  | .kwAssert => self .assertStatement
  | .kwImport => self .importStatement
  | .kwFrom => self .importFromStatement
  | _ => self .expressionStatement

def statementCode : Parser Stmt := do
  match ← peek with
  | .kwIf => self .ifStatement
  | .kwWhile => self .whileStatement
  | .kwFor => self (.forStatement (← start) none)
  | .kwTry => self .tryStatement
  | .kwWith => self (.withStatement (← start) none)
  | .kwDef => self (.funcDef (← start) [] none)
  | .kwClass => self (.classDef (← start) [])
  | .atSign => self .decorated
  | .kwAsync => self .asyncStatement
  | .indent => fail .unexpectedIndent
  | _ => return .line (← self .line)

def rootCode : (entry : EntryPoint) → Parser entry.Tree
  | .module => do
    let start ← start
    let statements ← many (.startedBy (· != .endOfFile) (self .statement))
    let last ← endOfFile
    return ⟨← spanFrom start, statements, last⟩
  | .expression => do
    let start ← start
    let body ← self (.expression .testList)
    let newlines ← self .newlines
    let last ← endOfFile
    return ⟨← spanFrom start, body, newlines, last⟩
  | .signature => do
    let start ← start
    let opener ← expect .leftParen
    let argumentTypes ← optional (.startedBy (· != .rightParen) (self (.expression .typeList)))
    let closer ← expect .rightParen
    let arrow ← expect .arrow
    let result ← self (.expression (.rule .test))
    let newlines ← self .newlines
    let last ← endOfFile
    return ⟨← spanFrom start, opener, argumentTypes, closer, arrow, result, newlines, last⟩

/-- The code of a function, over the functions that it calls. -/
def code : Family Result
  | expression f => ExprFn.code (fun g => self (.expression g)) f
  | listValue => do
    match ← self (.expression .testOrStarList) with
    | .sequence span .testList items trailing => return .list span items trailing
    | value => return .single value
  | assignedValue => do
    if ← isAt .kwYield then return .single (← self (.expression .yieldExpr)) else self .listValue
  | annotatedAssignment start first => do
    let target ← singleTarget .manyTargetsAnnotated first
    let colon ← bump
    let typeHint ← self (.expression (.rule .test))
    let value ← optional (.onKind .equal (introduced (self .assignedValue)))
    return .annAssign (← spanFrom start) target colon typeHint value
  | augmentedAssignment start first => do
    let target ← singleTarget .manyTargetsAugmented first
    let op ← bump
    let value ← if ← isAt .kwYield then self .assignedValue
      else Value.single <$> self (.expression .testList)
    return .augAssign (← spanFrom start) target op value
  | assignment start first => do
    let equal ← bump
    let rest ← separated .equal (self .assignedValue)
    return .assign (← spanFrom start) first equal rest
  | expressionStatement => do
    let start ← start
    let first ← self .assignedValue
    let kind ← peek
    if kind = .colon then self (.annotatedAssignment start first)
    else if kind.isAugmentedAssign then self (.augmentedAssignment start first)
    else if kind = .equal then self (.assignment start first)
    else return .value first
  | simpleKeyword kind => Grammar.simpleKeyword kind
  | returnStatement => do
    let start ← start
    let keyword ← bump
    let value ← optional (.startedBy (! endsSmall ·) (self .listValue))
    return .return (← spanFrom start) keyword value
  | raised => do
    let exception ← self (.expression (.rule .test))
    let cause ← optional (.onKind .kwFrom (introduced (self (.expression (.rule .test)))))
    return ⟨exception, cause⟩
  | raiseStatement => do
    let start ← start
    let keyword ← bump
    let raised ← optional (.startedBy (! endsSmall ·) (self .raised))
    return .raise (← spanFrom start) keyword raised
  | delStatement => do
    let start ← start
    let keyword ← bump
    let targets ← self (.expression .exprList)
    return .del (← spanFrom start) keyword targets
  | scopeStatement kind => Grammar.scopeStatement kind
  | assertStatement => do
    let start ← start
    let keyword ← bump
    let test ← self (.expression (.rule .test))
    let message ← optional (.onKind .comma (introduced (self (.expression (.rule .test)))))
    return .assert (← spanFrom start) keyword test message
  | dottedName => Grammar.dottedName
  | optionalAlias => Grammar.optionalAlias
  | dottedAsName => do
    let start ← start
    let name ← self .dottedName
    let asName ← self .optionalAlias
    return ⟨← spanFrom start, name, asName⟩
  | importStatement => do
    let start ← start
    let keyword ← bump
    let names ← separated .comma (self .dottedAsName)
    return .importModules (← spanFrom start) keyword names
  | importAsName => do
    let start ← start
    let name ← expect .name
    let asName ← self .optionalAlias
    return ⟨← spanFrom start, name, asName⟩
  | bareNames => do
    let start ← start
    let names ← separated .comma (self .importAsName)
    return .bare (← spanFrom start) names
  | enclosedNames => do
    let start ← start
    let opener ← bump
    let first ← self .importAsName
    let (names, trailing) ←
      separatedFrom .comma (fun _ => return (← peek) != .rightParen) (self .importAsName) first
    let closer ← expect .rightParen
    return .enclosed (← spanFrom start) opener names trailing closer
  | importTargets => do
    match ← peek with
    | .star => return .star (← bump)
    | .leftParen => self .enclosedNames
    | _ => self .bareNames
  | importFromStatement => do
    let start ← start
    let fromToken ← bump
    let dots ← many (.startedBy isDots bump)
    let module ←
      optional (.startedBy (fun kind => kind == .name || dots.isEmpty) (self .dottedName))
    let importToken ← expect .kwImport
    let targets ← self .importTargets
    return .importFrom (← spanFrom start) fromToken dots module importToken targets
  | small => smallCode self
  | lineBreak => Grammar.lineBreak
  | line => do
    let start ← start
    let first ← self .small
    let (statements, trailing) ←
      separatedFrom .semicolon (fun _ => return ! endsLine (← peek)) (self .small) first
    let typeComment ← eat .typeComment
    let newline ← self .lineBreak
    return ⟨← spanFrom start, statements, trailing, typeComment, newline⟩
  | decorator => do
    let start ← start
    let mark ← bump
    let expression ← self (.expression .namedTest)
    let typeComment ← eat .typeComment
    let newline ← expect .newline
    return ⟨← spanFrom start, mark, expression, typeComment, newline⟩
  | withItem => do
    let start ← start
    let context ← self (.expression (.rule .test))
    let target ← optional (.onKind .kwAs (introduced (self (.expression (.rule .expr)))))
    return ⟨← spanFrom start, context, target⟩
  | caught => do
    let test ← self (.expression (.rule .test))
    return ⟨test, ← self .optionalAlias⟩
  | classArguments => do
    let (opener, arguments, closer) ← bracketed .rightParen (self (.expression .argList))
    return ⟨opener, arguments, closer⟩
  | body => do
    let kind ← peek
    if kind = .newline ∨ kind = .typeComment then
      let start ← start
      let typeComment ← eat .typeComment
      let newline ← expect .newline
      if ← isAt .indent then
        let indent ← bump
        let statements ← blockStatements (self .statement)
        let dedent ← expect .dedent
        return .block (← spanFrom start) typeComment newline indent statements dedent
      else fail .expectedBlock
    else return .line (← self .line)
  | blockClause => do
    let start ← start
    let keyword ← bump
    let colon ← expect .colon
    let body ← self .body
    return .mk (← spanFrom start) keyword colon body
  | elseClause => optional (.onKind .kwElse (self .blockClause))
  | elifClause => do
    let start ← start
    let keyword ← bump
    let condition ← self (.expression .namedTest)
    let colon ← expect .colon
    let body ← self .body
    return .mk (← spanFrom start) keyword condition colon body
  | ifStatement => do
    let start ← start
    let ifToken ← bump
    let condition ← self (.expression .namedTest)
    let colon ← expect .colon
    let body ← self .body
    let elifs ← many (.onKind .kwElif (self .elifClause))
    let orelse ← self .elseClause
    return .ifElse (← spanFrom start) ifToken condition colon body elifs orelse
  | whileStatement => do
    let start ← start
    let whileToken ← bump
    let condition ← self (.expression .namedTest)
    let colon ← expect .colon
    let body ← self .body
    let orelse ← self .elseClause
    return .whileLoop (← spanFrom start) whileToken condition colon body orelse
  | forStatement start async => do
    let forToken ← expect .kwFor
    let targets ← self (.expression .exprList)
    let inToken ← expect .kwIn
    let source ← self (.expression .testList)
    let colon ← expect .colon
    let body ← self .body
    let orelse ← self .elseClause
    return .forLoop (← spanFrom start) async forToken targets inToken source colon body orelse
  | exceptClause => do
    let start ← start
    let keyword ← bump
    let caught ← optional (.startedBy (· != .colon) (self .caught))
    let colon ← expect .colon
    let body ← self .body
    return .mk (← spanFrom start) keyword caught colon body
  | tryStatement => do
    let start ← start
    let tryToken ← bump
    let colon ← expect .colon
    let body ← self .body
    let handlers ← many (.onKind .kwExcept (self .exceptClause))
    let orelse ← if handlers.isEmpty then pure none else self .elseClause
    let finalizer ← optional (.onKind .kwFinally (self .blockClause))
    if handlers.isEmpty && finalizer.isNone then fail .expectedHandler
    else return .tryBlock (← spanFrom start) tryToken colon body handlers orelse finalizer
  | withStatement start async => do
    let withToken ← expect .kwWith
    let items ← separated .comma (self .withItem)
    let colon ← expect .colon
    let body ← self .body
    return .withBlock (← spanFrom start) async withToken items colon body
  | funcDef start decorators async => do
    let keyword ← expect .kwDef
    let name ← expect .name
    let opener ← expect .leftParen
    let params ← optional (.startedBy (· != .rightParen)
      (self (.expression (.params true .rightParen))))
    let closer ← expect .rightParen
    let returns ← optional (.onKind .arrow (introduced (self (.expression (.rule .test)))))
    let colon ← expect .colon
    let body ← self .body
    return .funcDef (← spanFrom start) decorators async keyword name opener params closer returns
      colon body
  | classDef start decorators => do
    let keyword ← expect .kwClass
    let name ← expect .name
    let arguments ← optional (.onKind .leftParen (self .classArguments))
    let colon ← expect .colon
    let body ← self .body
    return .classDef (← spanFrom start) decorators keyword name arguments colon body
  | asyncStatement => do
    let start ← start
    let async ← bump
    match ← peek with
    | .kwDef => self (.funcDef start [] (some async))
    | .kwFor => self (.forStatement start (some async))
    | .kwWith => self (.withStatement start (some async))
    | _ => fail .expectedAsyncStatement
  | decorated => do
    let start ← start
    let decorators ← many (.onKind .atSign (self .decorator))
    match ← peek with
    | .kwDef => self (.funcDef start decorators none)
    | .kwClass => self (.classDef start decorators)
    | .kwAsync =>
      let async ← bump
      if ← isAt .kwDef then self (.funcDef start decorators (some async))
      else fail .expectedAsyncFunction
    | _ => fail .expectedDecorated
  | statement => statementCode self
  | newlines => Grammar.newlines
  | root entry => rootCode self entry

end Code

/-! ## The code over the functions themselves -/

theorem withRules_yieldExpr : withRules yieldExpr = yieldExpr grammarRules :=
  withRules_eq fun h => (same_yieldExpr h).pred

theorem withRules_params (typed : Bool) (closer : TokenKind) :
    withRules (params · typed closer) = params grammarRules typed closer :=
  withRules_eq fun h => (same_params h typed closer).pred

theorem aNamedTest_eq : aNamedTest = namedTest grammarRules :=
  withRules_eq same_namedTest

theorem aTestList_eq : aTestList = testList grammarRules :=
  withRules_eq same_testList

theorem anExprList_eq : anExprList = exprList grammarRules :=
  withRules_eq same_exprList

theorem run_root (entry : EntryPoint) : run (.root entry) = rootCode run entry := by
  cases entry with
  | module => rfl
  | expression =>
    show expressionRoot = _
    unfold expressionRoot
    rw [aTestList_eq]
    rfl
  | signature =>
    show signatureRoot = _
    unfold signatureRoot
    rw [withRules_eq same_typeList]
    rfl

theorem run_eq (f : Fn) : run f = code run f := by
  cases f with
  | expression f => exact f.run_eq
  | listValue =>
    show Grammar.listValue = _
    unfold Grammar.listValue
    rw [withRules_eq same_testOrStarList]
    rfl
  | assignedValue =>
    show Grammar.assignedValue = _
    unfold Grammar.assignedValue
    rw [withRules_yieldExpr]
    rfl
  | augmentedAssignment start first =>
    show Grammar.augmentedAssignment start first = _
    unfold Grammar.augmentedAssignment
    rw [aTestList_eq]
    rfl
  | delStatement =>
    show Grammar.delStatement = _
    unfold Grammar.delStatement
    rw [anExprList_eq]
    rfl
  | decorator =>
    show Grammar.decorator = _
    unfold Grammar.decorator
    rw [aNamedTest_eq]
    rfl
  | classArguments =>
    show Grammar.classArguments = _
    unfold Grammar.classArguments
    rw [withRules_eq same_argList]
    rfl
  | elifClause =>
    show Grammar.elifClause _ = _
    unfold Grammar.elifClause
    rw [aNamedTest_eq]
    rfl
  | ifStatement =>
    show Grammar.ifStatement _ = _
    unfold Grammar.ifStatement
    rw [aNamedTest_eq]
    rfl
  | whileStatement =>
    show Grammar.whileStatement _ = _
    unfold Grammar.whileStatement
    rw [aNamedTest_eq]
    rfl
  | forStatement start async =>
    show Grammar.forStatement _ start async = _
    unfold Grammar.forStatement
    rw [anExprList_eq, aTestList_eq]
    rfl
  | funcDef start decorators async =>
    show Grammar.funcDef _ start decorators async = _
    unfold Grammar.funcDef
    rw [withRules_params]
    rfl
  | statement => exact recursion_statement.eq ()
  | root entry => exact run_root entry
  | _ => rfl

/-! ## What a function depends on -/

theorem descends_endOfFile : Descends endOfFile := by
  intro s t u h
  unfold endOfFile at h
  split at h
  · cases h
    exact Nat.le_refl _
  · exact absurd h fail_ne_ok

section Same

variable {α : Type} {b : Nat}

theorem same_introduced {value value' : Parser α} (hvalue : SameBelow b value value') :
    SameBelow (b + 1) (introduced value) (introduced value') :=
  .start fun _ => .bump fun _ => hvalue.bind fun _ => .close

theorem same_separated {separator : TokenKind} {item item' : Parser α}
    (hitem : SameBelow b item item') :
    SameBelow b (separated separator item) (separated separator item') :=
  hitem.bind fun first =>
    (SameBelow.separatedFrom (fun _ => peeks_pure true) hitem first).bind fun _ => .pure

variable {self self' : Family Result}

theorem same_smallCode (h : SameUnder rank b (rank .small) self self') :
    SameBelow (b + 1) (smallCode self) (smallCode self') := by
  refine .peek fun kind => ?_
  split
  · exact h.here (.simpleKeyword .pass) rfl
  · exact h.here (.simpleKeyword .break) rfl
  · exact h.here (.simpleKeyword .continue) rfl
  · exact h.here .returnStatement rfl
  · exact h.here .raiseStatement rfl
  · exact h.here .delStatement rfl
  · exact h.here (.scopeStatement .global) rfl
  · exact h.here (.scopeStatement .nonlocal) rfl
  · exact h.here .assertStatement rfl
  · exact h.here .importStatement rfl
  · exact h.here .importFromStatement rfl
  · exact h.here .expressionStatement rfl

theorem same_statementCode (h : SameUnder rank b (rank .statement) self self') :
    SameBelow (b + 1) (statementCode self) (statementCode self') := by
  refine .peek fun kind => ?_
  split
  · exact h.here .ifStatement rfl
  · exact h.here .whileStatement rfl
  · exact .start fun start => h.here (.forStatement start none) rfl
  · exact h.here .tryStatement rfl
  · exact .start fun start => h.here (.withStatement start none) rfl
  · exact .start fun start => h.here (.funcDef start [] none) rfl
  · exact .start fun start => h.here (.classDef start []) rfl
  · exact h.here .decorated rfl
  · exact h.here .asyncStatement rfl
  · exact .fail
  · exact (h.here .line rfl).bind fun line => .pure

theorem same_rootCode (entry : EntryPoint)
    (h : SameUnder rank b (rank (.root entry)) self self') :
    SameBelow (b + 1) (rootCode self entry) (rootCode self' entry) := by
  have hend {α : Type} (n : Nat) (make : Span → Token → α) : SameBelow (b + 1)
      (endOfFile >>= fun last => spanFrom n >>= fun span => pure (make span last))
      (endOfFile >>= fun last => spanFrom n >>= fun span => pure (make span last)) :=
    .past descends_endOfFile fun last => .close
  cases entry with
  | module =>
    exact .start fun start => (SameBelow.many (rel_startedBy _ (h.here .statement rfl))).bind
      fun statements => hend start _
  | expression =>
    exact .start fun start => (h.here (.expression .testList) rfl).bind fun body =>
      (h.here .newlines rfl).bind fun newlines => hend start _
  | signature =>
    refine .start fun start => .expect fun opener => .pred ?_
    refine (SameBelow.optional (rel_startedBy _ (h.here (.expression .typeList) rfl))).bind ?_
    refine fun argumentTypes => .expect fun closer => .pred (.expect fun arrow => .pred ?_)
    exact (h.here (.expression (.rule .test)) rfl).bind fun result =>
      (h.here .newlines rfl).bind fun newlines => hend start _

/-! ### Small statements -/

section Small

variable (h : ∀ f, SameBelow b (self f) (self' f)) (start : Nat) (first : Value)

include h

theorem same_annotatedAssignment :
    SameBelow (b + 1) (code self (.annotatedAssignment start first))
      (code self' (.annotatedAssignment start first)) := by
  refine .past (descends_singleTarget first _) fun target => .bump fun colon => ?_
  refine (h (.expression (.rule .test))).bind fun typeHint => ?_
  refine (SameBelow.optional (rel_startedBy _ ?_)).bind fun value => .close
  exact (same_introduced (h .assignedValue)).pred

theorem same_augmentedAssignment :
    SameBelow (b + 1) (code self (.augmentedAssignment start first))
      (code self' (.augmentedAssignment start first)) := by
  refine .past (descends_singleTarget first _) fun target => .bump fun op => ?_
  refine .isAt fun atYield => ?_
  split
  · exact (h .assignedValue).bind fun value => .close
  · exact ((h (.expression .testList)).bind fun value => .pure).bind fun value => .close

omit start first in
theorem same_assertStatement :
    SameBelow (b + 1) (code self .assertStatement) (code self' .assertStatement) := by
  refine .start fun start => .bump fun keyword => ?_
  refine (h (.expression (.rule .test))).bind fun test => ?_
  refine (SameBelow.optional (rel_startedBy _ ?_)).bind fun message => .close
  exact (same_introduced (h (.expression (.rule .test)))).pred

omit start first in
theorem same_enclosedNames :
    SameBelow (b + 1) (code self .enclosedNames) (code self' .enclosedNames) := by
  refine .start fun start => .bump fun opener => (h .importAsName).bind fun first => ?_
  refine (SameBelow.separatedFrom (fun _ => ?_) (h .importAsName) first).bind fun names => ?_
  · exact peeks_peek.bind fun _ => peeks_pure _
  · exact .pastExpect fun closer => .close

omit start first in
theorem same_importFromStatement :
    SameBelow (b + 1) (code self .importFromStatement) (code self' .importFromStatement) := by
  refine .start fun start => .bump fun fromToken => ?_
  refine .past (yields_many (yields_startedBy yields_bump)).descends fun dots => ?_
  refine (SameBelow.optional (rel_startedBy _ (h .dottedName))).bind fun module => ?_
  refine .pastExpect fun importToken => ?_
  exact (h .importTargets).bind fun targets => .close

end Small

theorem same_expressionStatement
    (h : SameUnder rank b (rank .expressionStatement) self self') :
    SameBelow (b + 1) (code self .expressionStatement) (code self' .expressionStatement) := by
  refine .start fun start => (h.here .assignedValue rfl).bind fun first => .peek fun kind => ?_
  refine .ite (h.here (.annotatedAssignment start first) rfl) (.ite ?_ (.ite ?_ .pure))
  · exact h.here (.augmentedAssignment start first) rfl
  · exact h.here (.assignment start first) rfl

theorem same_raised (h : SameUnder rank b (rank .raised) self self') :
    SameBelow (b + 1) (code self .raised) (code self' .raised) := by
  refine (h.here (.expression (.rule .test)) rfl).bind fun exception => ?_
  refine (SameBelow.optional (rel_startedBy _ ?_)).bind fun cause => .pure
  exact same_introduced (h.behind (.expression (.rule .test)))

/-! ### Lines and compound statements -/

theorem same_line (h : SameUnder rank b (rank .line) self self') :
    SameBelow (b + 1) (code self .line) (code self' .line) := by
  refine .start fun start => (h.here .small rfl).bind fun first => ?_
  refine (SameBelow.separatedFrom (fun _ => ?_) (h.here .small rfl) first).bind ?_
  · exact peeks_peek.bind fun _ => peeks_pure _
  · exact fun statements => .pastEat fun typeComment =>
      (h.here .lineBreak rfl).bind fun newline => .close

theorem same_withItem (h : SameUnder rank b (rank .withItem) self self') :
    SameBelow (b + 1) (code self .withItem) (code self' .withItem) := by
  refine .start fun start => (h.here (.expression (.rule .test)) rfl).bind fun context => ?_
  refine (SameBelow.optional (rel_startedBy _ ?_)).bind fun target => .close
  exact same_introduced (h.behind (.expression (.rule .expr)))

theorem same_suite (h : SameUnder rank b (rank .body) self self') :
    SameBelow (b + 1) (code self .body) (code self' .body) := by
  refine .peek fun kind => .ite (.start fun start => ?_) ?_
  · refine .pastEat fun typeComment => ?_
    refine .expect fun newline => .isAt fun _ => .ite ?_ .fail
    refine .past advances_bump.descends fun indent => ?_
    refine (same_blockStatements (h.behind .statement)).bind fun statements => ?_
    exact .pastExpect fun dedent => .close
  · exact (h.here .line rfl).bind fun line => .pure

section Compound

variable (h : ∀ f, SameBelow b (self f) (self' f)) (start : Nat)

include h

omit start in
/-- The colon of a header and the body behind it. -/
theorem same_behindColon {f f' : Token → Body → Parser α}
    (hf : ∀ colon body, SameBelow b (f colon body) (f' colon body)) :
    SameBelow b (expect .colon >>= fun colon => self .body >>= f colon)
      (expect .colon >>= fun colon => self' .body >>= f' colon) :=
  .pastExpect fun colon => (h .body).bind (hf colon)

omit start in
theorem same_ifStatement :
    SameBelow (b + 1) (code self .ifStatement) (code self' .ifStatement) := by
  refine .start fun start => .bump fun ifToken => ?_
  refine (h (.expression .namedTest)).bind fun condition => same_behindColon h fun colon body => ?_
  refine (SameBelow.many (rel_startedBy _ (h .elifClause))).bind fun elifs => ?_
  exact (h .elseClause).bind fun orelse => .close

theorem same_forStatement (async : Option Token) :
    SameBelow (b + 1) (code self (.forStatement start async))
      (code self' (.forStatement start async)) := by
  refine .expect fun forToken => (h (.expression .exprList)).bind fun targets => ?_
  refine .pastExpect fun inToken => ?_
  refine (h (.expression .testList)).bind fun source => same_behindColon h fun colon body => ?_
  exact (h .elseClause).bind fun orelse => .close

omit start in
theorem same_tryStatement :
    SameBelow (b + 1) (code self .tryStatement) (code self' .tryStatement) := by
  refine .start fun start => .bump fun tryToken => same_behindColon h fun colon body => ?_
  refine (SameBelow.many (rel_startedBy _ (h .exceptClause))).bind fun handlers => ?_
  -- with and without handlers the rest is the same
  refine .ite (SameBelow.pure.bind ?rest) ((h .elseClause).bind ?rest)
  intro orelse
  refine (SameBelow.optional (rel_startedBy _ (h .blockClause))).bind fun finalizer => ?_
  exact .ite .fail .close

theorem same_funcDef (decorators : List Decorator) (async : Option Token) :
    SameBelow (b + 1) (code self (.funcDef start decorators async))
      (code self' (.funcDef start decorators async)) := by
  refine .expect fun keyword => .pastExpect fun name => ?_
  refine .pastExpect fun opener => ?_
  refine (SameBelow.optional (rel_startedBy _ (h (.expression (.params _ _))))).bind ?_
  refine fun params => .pastExpect fun closer => ?_
  refine (SameBelow.optional (rel_startedBy _ ?_)).bind fun returns => ?_
  · exact (same_introduced (h (.expression (.rule .test)))).pred
  · exact same_behindColon h fun colon body => .close

theorem same_classDef (decorators : List Decorator) :
    SameBelow (b + 1) (code self (.classDef start decorators))
      (code self' (.classDef start decorators)) := by
  refine .expect fun keyword => .pastExpect fun name => ?_
  refine (SameBelow.optional (rel_startedBy _ (h .classArguments))).bind fun arguments => ?_
  exact same_behindColon h fun colon body => .close

omit start in
theorem same_asyncStatement :
    SameBelow (b + 1) (code self .asyncStatement) (code self' .asyncStatement) := by
  refine .start fun start => .bump fun async => .peek fun kind => ?_
  split
  · exact h (.funcDef start [] (some async))
  · exact h (.forStatement start (some async))
  · exact h (.withStatement start (some async))
  · exact .fail

end Compound

theorem same_decorated (h : SameUnder rank b (rank .decorated) self self') :
    SameBelow (b + 1) (code self .decorated) (code self' .decorated) := by
  refine .start fun start => ?_
  refine (SameBelow.many (rel_startedBy _ (h.here .decorator rfl))).bind fun decorators => ?_
  refine .peek fun kind => ?_
  split
  · exact h.here (.funcDef start decorators none) rfl
  · exact h.here (.classDef start decorators) rfl
  · exact .bump fun async => .isAt fun _ =>
      .ite (h.behind (.funcDef start decorators (some async))) .fail
  · exact .fail

/-! ### All of them -/

theorem same_code (f : Fn) (h : SameUnder rank b (rank f) self self') :
    SameBelow (b + 1) (code self f) (code self' f) := by
  cases f with
  | expression f => exact ExprFn.same_code f fun g => h (.expression g)
  | listValue =>
    refine (h.here (.expression .testOrStarList) rfl).bind fun value => ?_
    split
    · exact .pure
    · exact .pure
  | assignedValue =>
    exact .isAt fun _ => .ite ((h.here (.expression .yieldExpr) rfl).bind fun _ => .pure)
      (h.here .listValue rfl)
  | annotatedAssignment start first => exact same_annotatedAssignment h.behind start first
  | augmentedAssignment start first => exact same_augmentedAssignment h.behind start first
  | assignment start first =>
    exact .bump fun _ => (same_separated (h.behind .assignedValue)).bind fun _ => .close
  | expressionStatement => exact same_expressionStatement h
  | simpleKeyword kind => exact .refl (PartParser.simpleKeyword kind).advances.descends
  | returnStatement =>
    exact .start fun _ => .bump fun _ =>
      (SameBelow.optional (rel_startedBy _ (h.behind .listValue))).bind fun _ => .close
  | raised => exact same_raised h
  | raiseStatement =>
    exact .start fun _ => .bump fun _ =>
      (SameBelow.optional (rel_startedBy _ (h.behind .raised))).bind fun _ => .close
  | delStatement =>
    exact .start fun _ => .bump fun _ => (h.behind (.expression .exprList)).bind fun _ => .close
  | scopeStatement kind => exact .refl (PartParser.scopeStatement kind).advances.descends
  | assertStatement => exact same_assertStatement h.behind
  | dottedName => exact .refl PartParser.dottedName.advances.descends
  | optionalAlias => exact .refl yields_optionalAlias.descends
  | dottedAsName =>
    exact .start fun _ => (h.here .dottedName rfl).bind fun _ =>
      (h.here .optionalAlias rfl).bind fun _ => .close
  | importStatement =>
    exact .start fun _ => .bump fun _ =>
      (same_separated (h.behind .dottedAsName)).bind fun _ => .close
  | importAsName =>
    exact .start fun _ => .expect fun _ => (h.behind .optionalAlias).bind fun _ => .close
  | bareNames =>
    exact .start fun _ => (same_separated (h.here .importAsName rfl)).bind fun _ => .close
  | enclosedNames => exact same_enclosedNames h.behind
  | importTargets =>
    refine .peek fun kind => ?_
    split
    · exact .bump fun star => .pure
    · exact h.here .enclosedNames rfl
    · exact h.here .bareNames rfl
  | importFromStatement => exact same_importFromStatement h.behind
  | small => exact same_smallCode h
  | lineBreak => exact .refl yields_lineBreak.descends
  | line => exact same_line h
  | decorator =>
    exact .start fun _ => .bump fun _ => (h.behind (.expression .namedTest)).bind fun _ =>
      .pastEat fun _ => .pastExpect fun _ => .close
  | withItem => exact same_withItem h
  | caught =>
    exact (h.here (.expression (.rule .test)) rfl).bind fun _ =>
      (h.here .optionalAlias rfl).bind fun _ => .pure
  | classArguments =>
    exact (same_bracketed _ (h.behind (.expression .argList))).bind fun _ => .pure
  | body => exact same_suite h
  | blockClause =>
    exact .start fun _ => .bump fun _ => same_behindColon h.behind fun _ _ => .close
  | elseClause => exact .optional (rel_startedBy _ (h.here .blockClause rfl))
  | elifClause =>
    exact .start fun _ => .bump fun _ => (h.behind (.expression .namedTest)).bind fun _ =>
      same_behindColon h.behind fun _ _ => .close
  | ifStatement => exact same_ifStatement h.behind
  | whileStatement =>
    exact .start fun _ => .bump fun _ => (h.behind (.expression .namedTest)).bind fun _ =>
      same_behindColon h.behind fun _ _ => (h.behind .elseClause).bind fun _ => .close
  | forStatement start async => exact same_forStatement h.behind start async
  | exceptClause =>
    exact .start fun _ => .bump fun _ =>
      (SameBelow.optional (rel_startedBy _ (h.behind .caught))).bind fun _ =>
        same_behindColon h.behind fun _ _ => .close
  | tryStatement => exact same_tryStatement h.behind
  | withStatement start async =>
    exact .expect fun _ => (same_separated (h.behind .withItem)).bind fun _ =>
      same_behindColon h.behind fun _ _ => .close
  | funcDef start decorators async => exact same_funcDef h.behind start decorators async
  | classDef start decorators => exact same_classDef h.behind start decorators
  | asyncStatement => exact same_asyncStatement h.behind
  | decorated => exact same_decorated h
  | statement => exact same_statementCode h
  | newlines => exact .refl (yields_many (yields_startedBy yields_bump)).descends
  | root entry => exact same_rootCode entry h

end Same

end Fn

end Verbatim.Grammar
