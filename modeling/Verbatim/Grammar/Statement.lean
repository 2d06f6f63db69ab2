import Verbatim.Grammar.Expression
import Verbatim.Tree.Stmt

/-!
# The statement grammar

Small statements hold expressions only. Compound statements are parsers over a parser for
the statements inside them, and the knot is tied as for expressions: an inner statement
stands after at least one token of the outer one.
-/

namespace Verbatim.Grammar

open Verbatim.Parser

/-! ## Expressions inside statements -/

def aTest : Parser Expr := withRules (· .test)

def anExpr : Parser Expr := withRules (· .expr)

def aNamedTest : Parser Expr := withRules namedTest

def aTestList : Parser Expr := withRules testList

def anExprList : Parser Expr := withRules exprList

def introduced {α : Type} (value : Parser α) : Parser (Introduced α) := do
  let start ← start
  let token ← bump
  let value ← value
  return ⟨← spanFrom start, token, value⟩

/-! ## Small statements -/

/-- The kinds at which the small statements of a line end. -/
def endsLine : TokenKind → Bool
  | .newline | .endOfFile | .dedent | .typeComment => true
  | _ => false

/-- The kinds that cannot follow a keyword as its operand. -/
def endsSmall (kind : TokenKind) : Bool :=
  endsLine kind || kind == .semicolon

/-- A list of expressions, or one that stands for itself. -/
def listValue : Parser Value := do
  match ← withRules testOrStarList with
  | .sequence span .testList items trailing => return .list span items trailing
  | value => return .single value

def assignedValue : Parser Value := do
  if ← isAt .kwYield then return .single (← withRules yieldExpr) else listValue

def singleTarget (cause : SyntaxCause) : Value → Parser Expr
  | .single target => return target
  | .list _ _ _ => fail cause

def annotatedAssignment (start : Nat) (first : Value) : Parser Small := do
  let target ← singleTarget .manyTargetsAnnotated first
  let colon ← bump
  let typeHint ← aTest
  let value ← optional (.onKind .equal (introduced assignedValue))
  return .annAssign (← spanFrom start) target colon typeHint value

def augmentedAssignment (start : Nat) (first : Value) : Parser Small := do
  let target ← singleTarget .manyTargetsAugmented first
  let op ← bump
  let value ← if ← isAt .kwYield then assignedValue else Value.single <$> aTestList
  return .augAssign (← spanFrom start) target op value

def assignment (start : Nat) (first : Value) : Parser Small := do
  let equal ← bump
  let rest ← separated .equal assignedValue
  return .assign (← spanFrom start) first equal rest

def expressionStatement : Parser Small := do
  let start ← start
  let first ← assignedValue
  let kind ← peek
  if kind = .colon then annotatedAssignment start first
  else if kind.isAugmentedAssign then augmentedAssignment start first
  else if kind = .equal then assignment start first
  else return .value first

def simpleKeyword (kind : SimpleKeyword) : Parser Small := do
  return .keyword kind (← bump)

def returnStatement : Parser Small := do
  let start ← start
  let keyword ← bump
  let value ← optional (.startedBy (! endsSmall ·) listValue)
  return .return (← spanFrom start) keyword value

def raised : Parser Raised := do
  let exception ← aTest
  return ⟨exception, ← optional (.onKind .kwFrom (introduced aTest))⟩

def raiseStatement : Parser Small := do
  let start ← start
  let keyword ← bump
  let raised ← optional (.startedBy (! endsSmall ·) raised)
  return .raise (← spanFrom start) keyword raised

def delStatement : Parser Small := do
  let start ← start
  let keyword ← bump
  let targets ← anExprList
  return .del (← spanFrom start) keyword targets

def scopeStatement (kind : ScopeKind) : Parser Small := do
  let start ← start
  let keyword ← bump
  let names ← separated .comma (expect .name)
  return .scope (← spanFrom start) kind keyword names

def assertStatement : Parser Small := do
  let start ← start
  let keyword ← bump
  let test ← aTest
  let message ← optional (.onKind .comma (introduced aTest))
  return .assert (← spanFrom start) keyword test message

/-! ## Imports -/

def dottedName : Parser DottedName := do
  let start ← start
  let parts ← separated .dot (expect .name)
  return ⟨← spanFrom start, parts⟩

def optionalAlias : Parser (Option AsName) :=
  optional (.onKind .kwAs (introduced (expect .name)))

def dottedAsName : Parser DottedAsName := do
  let start ← start
  let name ← dottedName
  let asName ← optionalAlias
  return ⟨← spanFrom start, name, asName⟩

def importStatement : Parser Small := do
  let start ← start
  let keyword ← bump
  let names ← separated .comma dottedAsName
  return .importModules (← spanFrom start) keyword names

def importAsName : Parser ImportAsName := do
  let start ← start
  let name ← expect .name
  let asName ← optionalAlias
  return ⟨← spanFrom start, name, asName⟩

def bareNames : Parser ImportTargets := do
  let start ← start
  let names ← separated .comma importAsName
  return .bare (← spanFrom start) names

/-- Names in parentheses, where a comma may trail. -/
def enclosedNames : Parser ImportTargets := do
  let start ← start
  let opener ← bump
  let first ← importAsName
  let (names, trailing) ←
    separatedFrom .comma (fun _ => return (← peek) != .rightParen) importAsName first
  let closer ← expect .rightParen
  return .enclosed (← spanFrom start) opener names trailing closer

def importTargets : Parser ImportTargets := do
  match ← peek with
  | .star => return .star (← bump)
  | .leftParen => enclosedNames
  | _ => bareNames

def isDots (kind : TokenKind) : Bool :=
  kind == .dot || kind == .ellipsis

/-- A relative import may leave out the module's name. -/
def importFromStatement : Parser Small := do
  let start ← start
  let fromToken ← bump
  let dots ← many (.startedBy isDots bump)
  let module ← optional (.startedBy (fun kind => kind == .name || dots.isEmpty) dottedName)
  let importToken ← expect .kwImport
  let targets ← importTargets
  return .importFrom (← spanFrom start) fromToken dots module importToken targets

def small : Parser Small := do
  match ← peek with
  | .kwPass => simpleKeyword .pass
  | .kwBreak => simpleKeyword .break
  | .kwContinue => simpleKeyword .continue
  | .kwReturn => returnStatement
  | .kwRaise => raiseStatement
  | .kwDel => delStatement
  | .kwGlobal => scopeStatement .global
  | .kwNonlocal => scopeStatement .nonlocal
  | .kwAssert => assertStatement
  | .kwImport => importStatement
  | .kwFrom => importFromStatement
  | _ => expressionStatement

/-! ## Lines -/

/-- A line may go without its line break where a block or the source ends. -/
def lineBreak : Parser (Option Token) := do
  match ← peek with
  | .newline => return some (← bump)
  | .endOfFile | .dedent => return none
  | _ => fail (.expected .newline)

def line : Parser Line := do
  let start ← start
  let first ← small
  let (statements, trailing) ←
    separatedFrom .semicolon (fun _ => return ! endsLine (← peek)) small first
  let typeComment ← eat .typeComment
  let newline ← lineBreak
  return ⟨← spanFrom start, statements, trailing, typeComment, newline⟩

/-! ## Compound statements -/

def decorator : Parser Decorator := do
  let start ← start
  let mark ← bump
  let expression ← aNamedTest
  let typeComment ← eat .typeComment
  let newline ← expect .newline
  return ⟨← spanFrom start, mark, expression, typeComment, newline⟩

def withItem : Parser WithItem := do
  let start ← start
  let context ← aTest
  let target ← optional (.onKind .kwAs (introduced anExpr))
  return ⟨← spanFrom start, context, target⟩

def caught : Parser Caught := do
  let test ← aTest
  return ⟨test, ← optionalAlias⟩

def classArguments : Parser ClassArguments := do
  let (opener, arguments, closer) ← bracketed .rightParen (withRules argList)
  return ⟨opener, arguments, closer⟩

section Statement

variable (statement : Parser Stmt)

def blockStatements : Parser (List Stmt) :=
  many (.startedBy (fun kind => kind != .dedent && kind != .endOfFile) statement)

def body : Parser Body := do
  let kind ← peek
  if kind = .newline ∨ kind = .typeComment then
    let start ← start
    let typeComment ← eat .typeComment
    let newline ← expect .newline
    if ← isAt .indent then
      let indent ← bump
      let statements ← blockStatements statement
      let dedent ← expect .dedent
      return .block (← spanFrom start) typeComment newline indent statements dedent
    else fail .expectedBlock
  else return .line (← line)

def blockClause : Parser BlockClause := do
  let start ← start
  let keyword ← bump
  let colon ← expect .colon
  let body ← body statement
  return .mk (← spanFrom start) keyword colon body

def elseClause : Parser (Option BlockClause) :=
  optional (.onKind .kwElse (blockClause statement))

def elifClause : Parser ElifClause := do
  let start ← start
  let keyword ← bump
  let condition ← aNamedTest
  let colon ← expect .colon
  let body ← body statement
  return .mk (← spanFrom start) keyword condition colon body

def ifStatement : Parser Stmt := do
  let start ← start
  let ifToken ← bump
  let condition ← aNamedTest
  let colon ← expect .colon
  let body ← body statement
  let elifs ← many (.onKind .kwElif (elifClause statement))
  let orelse ← elseClause statement
  return .ifElse (← spanFrom start) ifToken condition colon body elifs orelse

def whileStatement : Parser Stmt := do
  let start ← start
  let whileToken ← bump
  let condition ← aNamedTest
  let colon ← expect .colon
  let body ← body statement
  let orelse ← elseClause statement
  return .whileLoop (← spanFrom start) whileToken condition colon body orelse

def forStatement (start : Nat) (async : Option Token) : Parser Stmt := do
  let forToken ← expect .kwFor
  let targets ← anExprList
  let inToken ← expect .kwIn
  let source ← aTestList
  let colon ← expect .colon
  let body ← body statement
  let orelse ← elseClause statement
  return .forLoop (← spanFrom start) async forToken targets inToken source colon body orelse

def exceptClause : Parser ExceptClause := do
  let start ← start
  let keyword ← bump
  let caught ← optional (.startedBy (· != .colon) caught)
  let colon ← expect .colon
  let body ← body statement
  return .mk (← spanFrom start) keyword caught colon body

/-- A `try` has a handler or a `finally`, and an `else` only after a handler. -/
def tryStatement : Parser Stmt := do
  let start ← start
  let tryToken ← bump
  let colon ← expect .colon
  let body ← body statement
  let handlers ← many (.onKind .kwExcept (exceptClause statement))
  let orelse ← if handlers.isEmpty then pure none else elseClause statement
  let finalizer ← optional (.onKind .kwFinally (blockClause statement))
  if handlers.isEmpty && finalizer.isNone then fail .expectedHandler
  else return .tryBlock (← spanFrom start) tryToken colon body handlers orelse finalizer

def withStatement (start : Nat) (async : Option Token) : Parser Stmt := do
  let withToken ← expect .kwWith
  let items ← separated .comma withItem
  let colon ← expect .colon
  let body ← body statement
  return .withBlock (← spanFrom start) async withToken items colon body

def funcDef (start : Nat) (decorators : List Decorator) (async : Option Token) :
    Parser Stmt := do
  let keyword ← expect .kwDef
  let name ← expect .name
  let opener ← expect .leftParen
  let params ←
    optional (.startedBy (· != .rightParen) (withRules (params · true .rightParen)))
  let closer ← expect .rightParen
  let returns ← optional (.onKind .arrow (introduced aTest))
  let colon ← expect .colon
  let body ← body statement
  return .funcDef (← spanFrom start) decorators async keyword name opener params closer returns
    colon body

def classDef (start : Nat) (decorators : List Decorator) : Parser Stmt := do
  let keyword ← expect .kwClass
  let name ← expect .name
  let arguments ← optional (.onKind .leftParen classArguments)
  let colon ← expect .colon
  let body ← body statement
  return .classDef (← spanFrom start) decorators keyword name arguments colon body

def asyncStatement : Parser Stmt := do
  let start ← start
  let async ← bump
  match ← peek with
  | .kwDef => funcDef statement start [] (some async)
  | .kwFor => forStatement statement start (some async)
  | .kwWith => withStatement statement start (some async)
  | _ => fail .expectedAsyncStatement

def decorated : Parser Stmt := do
  let start ← start
  let decorators ← many (.onKind .atSign decorator)
  match ← peek with
  | .kwDef => funcDef statement start decorators none
  | .kwClass => classDef statement start decorators
  | .kwAsync =>
    let async ← bump
    if ← isAt .kwDef then funcDef statement start decorators (some async)
    else fail .expectedAsyncFunction
  | _ => fail .expectedDecorated

def statementBody : Parser Stmt := do
  match ← peek with
  | .kwIf => ifStatement statement
  | .kwWhile => whileStatement statement
  | .kwFor => forStatement statement (← start) none
  | .kwTry => tryStatement statement
  | .kwWith => withStatement statement (← start) none
  | .kwDef => funcDef statement (← start) [] none
  | .kwClass => classDef statement (← start) []
  | .atSign => decorated statement
  | .kwAsync => asyncStatement statement
  | .indent => fail .unexpectedIndent
  | _ => return .line (← line)

end Statement

/-! ## Tying the knot -/

/-- A statement with at most `n` statements inside each other. -/
def statementUpTo : Nat → Parser Stmt
  | 0 => fail .expectedAtom
  | n + 1 => statementBody (statementUpTo n)

def statement : Parser Stmt := fun s =>
  statementUpTo (s.upcoming.length + 1) s

end Verbatim.Grammar
