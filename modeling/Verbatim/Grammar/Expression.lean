import Verbatim.Grammar.Operators
import Verbatim.Grammar.Stream

/-!
# The expression grammar

Each level of the grammar is a parser over the levels below it. The few rules that the
grammar enters again from inside, after at least one token, are parameters of all the
others: `rules` gives them one level down. Tying the knot then needs no more levels than
there are tokens left.
-/

namespace Verbatim.Grammar

open Verbatim.Parser

inductive Rule where
  | test | testNoConditional | orTest | expr | notTest | factor
deriving DecidableEq, Repr

abbrev Rules := Rule → Parser Expr

/-! ## Lists and operators -/

/-- More elements of a comma list after the first. A comma goes on with the list only before a
token that can start an element. An element without a comma stands for itself. -/
def commaListFrom (start : Nat) (kind : SequenceKind) (continues : TokenKind → Bool)
    (element : Parser Expr) (first : Expr) : Parser Expr := do
  match ← separatedFrom .comma (fun _ => return continues (← peek)) element first with
  | (.one single, none) => return single
  | (items, trailing) => return .sequence (← spanFrom start) kind items trailing

def commaList (kind : SequenceKind) (continues : TokenKind → Bool) (element : Parser Expr) :
    Parser Expr := do
  let start ← start
  commaListFrom start kind continues element (← element)

def prefixed (kind : UnaryKind) (operand : Parser Expr) : Parser Expr := do
  let start ← start
  let op ← bump
  let operand ← operand
  return .unary (← spanFrom start) kind op operand

def operation (start : Nat) (kind : BinaryKind) (operand : Parser Expr) : Parser Operation := do
  let op ← bump
  let right ← operand
  return .binary (← spanFrom start) kind op right

def leftFold (level : FoldLevel) (operand : Parser Expr) : Parser Expr := do
  let start ← start
  let first ← operand
  let operations ← many fun kind => (level.operator? kind).map (operation start · operand)
  return operations.foldl Operation.applyTo first

def notIn (start : Nat) (operand : Parser Expr) : Parser Operation := do
  let first ← bump
  let second ← expect .kwIn
  let right ← operand
  return .compound (← spanFrom start) .notIn first second right

def isOrIsNot (start : Nat) (operand : Parser Expr) : Parser Operation := do
  let first ← bump
  match ← eat .kwNot with
  | some second =>
    let right ← operand
    return .compound (← spanFrom start) .isNot first second right
  | none =>
    let right ← operand
    return .binary (← spanFrom start) .isSame first right

def comparisonChoice (start : Nat) (operand : Parser Expr) : Choice Operation
  | .kwNot => some (notIn start operand)
  | .kwIs => some (isOrIsNot start operand)
  | kind => (BinaryKind.comparison? kind).map (operation start · operand)

/-- Comparisons fold to the left like any operators of one level. -/
def comparisons (operand : Parser Expr) : Parser Expr := do
  let start ← start
  let first ← operand
  let operations ← many (comparisonChoice start operand)
  return operations.foldl Operation.applyTo first

/-- An opening bracket, a body unless the closing bracket follows at once, and the closing
bracket. -/
def bracketed (closer : TokenKind) (body : Parser Expr) : Parser (Token × Option Expr × Token) := do
  let opener ← bump
  let inside ← optional (.startedBy (· != closer) body)
  return (opener, inside, ← expect closer)

section Rules

variable (rules : Rules)

/-! ## Elements of lists -/

def starExpr : Parser Expr :=
  prefixed .star (rules .expr)

def testOrStar : Parser Expr := do
  if ← isAt .star then starExpr rules else rules .test

def exprOrStar : Parser Expr := do
  if ← isAt .star then starExpr rules else rules .expr

def testList : Parser Expr :=
  commaList .testList TokenKind.startsExpression (rules .test)

def testOrStarList : Parser Expr :=
  commaList .testList TokenKind.startsExpression (testOrStar rules)

def exprList : Parser Expr :=
  commaList .exprList TokenKind.startsExpression (exprOrStar rules)

def starredTest (plain : Parser Expr) : Parser Expr := do
  match ← peek with
  | .star => prefixed .star (rules .test)
  | .doubleStar => prefixed .doubleStar (rules .test)
  | _ => plain

def typeList : Parser Expr :=
  commaList .typeList TokenKind.startsExpression (starredTest rules (rules .test))

def namedTest : Parser Expr := do
  let start ← start
  let left ← rules .test
  if ← isAt .colonEqual then
    if left.name?.isSome then
      let op ← bump
      let right ← rules .test
      return .binary (← spanFrom start) .named left op right
    else fail .unnamedTarget
  else return left

def namedOrStar : Parser Expr := do
  if ← isAt .star then starExpr rules else namedTest rules

/-! ## Comprehensions -/

def startsLoop (kind : TokenKind) : Bool :=
  kind == .kwFor || kind == .kwAsync

def loop (next : Parser (Option Clause)) : Parser Clause := do
  let start ← start
  let async ← eat .kwAsync
  let forToken ← expect .kwFor
  let targets ← exprList rules
  let inToken ← expect .kwIn
  let source ← rules .orTest
  let next ← next
  return .loop (← spanFrom start) async forToken targets inToken source next

def guardClause (next : Parser (Option Clause)) : Parser Clause := do
  let start ← start
  let ifToken ← bump
  let condition ← rules .testNoConditional
  let next ← next
  return .guard (← spanFrom start) ifToken condition next

def clauseChoice (next : Parser (Option Clause)) : Choice Clause := fun kind =>
  if startsLoop kind then some (loop rules next)
  else if kind == .kwIf then some (guardClause rules next)
  else none

/-- A clause after another one, if there is any, with at most `n` clauses inside each other. -/
def nextClauseUpTo : Nat → Parser (Option Clause)
  | 0 => return none
  | n + 1 => optional (clauseChoice rules (nextClauseUpTo n))

def nextClause : Parser (Option Clause) := fun s =>
  nextClauseUpTo rules (s.upcoming.length + 1) s

def comprehension (start : Nat) (element : Expr) : Parser Expr := do
  let clause ← loop rules (nextClause rules)
  return .comprehension (← spanFrom start) element clause

/-- A comprehension over an element, or a comma list that begins with it. -/
def comprehensionOrList (start : Nat) (kind : SequenceKind) (element : Parser Expr)
    (first : Expr) : Parser Expr := do
  if startsLoop (← peek) then comprehension rules start first
  else commaListFrom start kind TokenKind.startsExpression element first

def testListComp : Parser Expr := do
  let start ← start
  comprehensionOrList rules start .testListComp (namedOrStar rules) (← namedOrStar rules)

/-! ## Displays in braces -/

/-- What the elements of a display in braces can still be. -/
inductive BraceMode where
  | undecided | dictionary | set
deriving DecidableEq, Repr

def braceElement (mode : BraceMode) : Parser Expr := do
  let kind ← peek
  if kind = .doubleStar ∧ mode ≠ .set then prefixed .doubleStar (rules .expr)
  else if kind = .star ∧ mode ≠ .dictionary then starExpr rules
  else
    let start ← start
    let key ← rules .test
    if mode = .set ∨ (mode = .undecided ∧ (← peek) ≠ .colon) then return key
    else
      let colon ← expect .colon
      let value ← rules .test
      return .dictEntry (← spanFrom start) key colon value

def isUnpacking : Expr → Bool
  | .unary _ .doubleStar _ _ => true
  | _ => false

def isDictEntry : Expr → Bool
  | .dictEntry _ _ _ _ => true
  | _ => false

/-- The body of a display whose first element decides between a dictionary and a set. -/
def braceBody (start : Nat) (first : Expr) (isDictionary : Bool) : Parser Expr := do
  if startsLoop (← peek) && isUnpacking first then fail .unpackingInComprehension
  else if isDictionary then
    comprehensionOrList rules start .dictMaker (braceElement rules .dictionary) first
  else comprehensionOrList rules start .setMaker (braceElement rules .set) first

/-- A pair of braces with nothing inside is a dictionary. -/
def braceDisplay : Parser Expr := do
  let start ← start
  let opener ← bump
  match ← eat .rightBrace with
  | some closer => return .display (← spanFrom start) .dictionary opener none closer
  | none =>
    let bodyStart ← Parser.start
    let first ← braceElement rules .undecided
    let isDictionary := isDictEntry first || isUnpacking first
    let body ← braceBody rules bodyStart first isDictionary
    let closer ← expect .rightBrace
    let kind := if isDictionary then .dictionary else .set
    return .display (← spanFrom start) kind opener (some body) closer

/-! ## Calls, subscripts and yields -/

def argument : Parser Expr :=
  starredTest rules do
    let start ← start
    let name ← namedTest rules
    if ← isAt .equal then
      if name.name?.isSome then
        let equal ← bump
        let value ← rules .test
        return .argument (← spanFrom start) name equal value
      else fail .unnamedArgument
    else return name

def argList : Parser Expr := do
  let start ← start
  comprehensionOrList rules start .argList (argument rules) (← argument rules)

def optionalTest : Parser (Option Expr) :=
  optional (.startedBy TokenKind.startsExpression (rules .test))

def sliceStep : Parser Step := do
  let colon ← bump
  return .mk colon (← optionalTest rules)

def sliceFrom (start : Nat) (lower : Option Expr) : Parser Expr := do
  let colon ← bump
  let upper ← optionalTest rules
  let step ← optional (.onKind .colon (sliceStep rules))
  return .slice (← spanFrom start) lower colon upper step

def subscript : Parser Expr := do
  let start ← start
  if ← isAt .colon then sliceFrom rules start none
  else
    let lower ← rules .test
    if ← isAt .colon then sliceFrom rules start (some lower) else return lower

/-- A subscript may open with the colon of a slice that has no lower bound. -/
def startsSubscript (kind : TokenKind) : Bool :=
  kind == .colon || kind.startsExpression

def subscriptList : Parser Expr :=
  commaList .subscriptList startsSubscript (subscript rules)

def yieldExpr : Parser Expr := do
  let start ← start
  let keyword ← expect .kwYield
  match ← eat .kwFrom with
  | some fromToken =>
    let value ← rules .test
    return .yieldFrom (← spanFrom start) keyword fromToken value
  | none =>
    let value ← optional (.startedBy TokenKind.startsExpression (testOrStarList rules))
    return .yield (← spanFrom start) keyword value

/-! ## Parameters -/

def typeHint : Parser TypeHint := do
  let start ← start
  let colon ← bump
  let value ← rules .test
  return .mk (← spanFrom start) colon value

/-- The name of a parameter. Only the parameters of a definition, `typed`, take types. -/
def declarator (typed : Bool) : Parser Declarator := do
  let start ← start
  let name ← expect .name
  let hint ← optional (.startedBy (fun kind => typed && kind == .colon) (typeHint rules))
  return .mk (← spanFrom start) name hint

def variadicParam (typed : Bool) : Parser Param := do
  let start ← start
  let star ← bump
  match ← optional (.onKind .name (declarator rules typed)) with
  | some name => return .variadic (← spanFrom start) star name
  | none => return .keywordOnly (← spanFrom start) star

def param (typed : Bool) : Parser Param := do
  match ← peek with
  | .star => variadicParam rules typed
  | .doubleStar =>
    let start ← start
    let op ← bump
    let name ← declarator rules typed
    return .keywordVariadic (← spanFrom start) op name
  | .slash => return .positionalOnly (← bump)
  | .name =>
    let start ← start
    let name ← declarator rules typed
    match ← eat .equal with
    | some assign =>
      let value ← rules .test
      return .withDefault (← spanFrom start) name assign value
    | none => return .single name
  | _ => fail .expectedParameter

/-- After a comma another parameter follows unless the list closes; none follows the one that
takes all further keyword arguments. -/
def moreParams (closer : TokenKind) (before : Param) : Parser Bool := do
  if ← isAt closer then return false
  else if before.isKeywordVariadic then fail .parameterAfterKeywords
  else return true

def params (typed : Bool) (closer : TokenKind) : Parser Params := do
  let start ← start
  let first ← param rules typed
  let (items, trailing) ← separatedFrom .comma (moreParams closer) (param rules typed) first
  return .mk (← spanFrom start) items trailing

/-! ## Atoms -/

def parenBody : Parser Expr := do
  if ← isAt .kwYield then yieldExpr rules else testListComp rules

def stringLiterals : Parser Expr := do
  let start ← start
  let first ← bump
  let more ← many (.onKind .string bump)
  return .strings (← spanFrom start) first more

def display (kind : DisplayKind) (closer : TokenKind) (body : Parser Expr) : Parser Expr := do
  let start ← start
  let (opener, body, closer) ← bracketed closer body
  return .display (← spanFrom start) kind opener body closer

def atom : Parser Expr := do
  match ← peek with
  | .leftParen => display .tuple .rightParen (parenBody rules)
  | .leftBracket => display .list .rightBracket (testListComp rules)
  | .leftBrace => braceDisplay rules
  | .string => stringLiterals
  | kind =>
    match LeafKind.ofToken? kind with
    | some leaf => return .leaf leaf (← bump)
    | none => fail .expectedAtom

def member : Parser Trailer := do
  let start ← start
  let dot ← bump
  let name ← expect .name
  return .member (← spanFrom start) dot name

def call : Parser Trailer := do
  let start ← start
  let (opener, arguments, closer) ← bracketed .rightParen (argList rules)
  return .call (← spanFrom start) opener arguments closer

def index : Parser Trailer := do
  let start ← start
  let (opener, subscripts, closer) ← bracketed .rightBracket (subscriptList rules)
  return .index (← spanFrom start) opener subscripts closer

def trailerChoice : Choice Trailer
  | .dot => some member
  | .leftParen => some (call rules)
  | .leftBracket => some (index rules)
  | _ => none

def appliedAtom : Parser Expr := do
  let start ← start
  let await ← eat .kwAwait
  let atom ← atom rules
  let trailers ← many (trailerChoice rules)
  if await.isNone && trailers.isEmpty then return atom
  else return .applied (← spanFrom start) await atom trailers

/-! ## The levels, tightest first -/

/-- An exponent is a factor, so powers nest to the right. -/
def power : Parser Expr := do
  let start ← start
  let base ← appliedAtom rules
  match ← eat .doubleStar with
  | some op =>
    let exponent ← rules .factor
    return .binary (← spanFrom start) .power base op exponent
  | none => return base

def factor : Parser Expr := do
  match UnaryKind.sign? (← peek) with
  | some kind => prefixed kind (rules .factor)
  | none => power rules

def expr : Parser Expr :=
  FoldLevel.arithmetic.foldr leftFold (factor rules)

def notTest : Parser Expr := do
  if ← isAt .kwNot then prefixed .not (rules .notTest) else comparisons (expr rules)

def orTest : Parser Expr :=
  leftFold .or (leftFold .and (notTest rules))

def lambda (body : Parser Expr) : Parser Expr := do
  let start ← start
  let keyword ← bump
  let params ← optional (.startedBy (· != .colon) (params rules false .colon))
  let colon ← expect .colon
  let body ← body
  return .lambda (← spanFrom start) keyword params colon body

def test : Parser Expr := do
  if ← isAt .kwLambda then lambda rules (rules .test)
  else
    let start ← start
    let body ← orTest rules
    match ← eat .kwIf with
    | some ifToken =>
      let condition ← orTest rules
      let elseToken ← expect .kwElse
      let alternative ← rules .test
      return .conditional (← spanFrom start) body ifToken condition elseToken alternative
    | none => return body

/-- A test that is no conditional, as the condition of a comprehension. -/
def testNoConditional : Parser Expr := do
  if ← isAt .kwLambda then lambda rules (rules .testNoConditional) else orTest rules

end Rules

/-! ## Tying the knot -/

def Rule.body (rules : Rules) : Rule → Parser Expr
  | .test => Grammar.test rules
  | .testNoConditional => Grammar.testNoConditional rules
  | .orTest => Grammar.orTest rules
  | .expr => Grammar.expr rules
  | .notTest => Grammar.notTest rules
  | .factor => Grammar.factor rules

/-- The rules with at most `n` of them inside each other. -/
def rulesUpTo : Nat → Rules
  | 0, _ => fail .expectedAtom
  | n + 1, rule => rule.body (rulesUpTo n)

/-- A parser over the rules, with as many levels as there are tokens left. -/
def withRules {α : Type} (parser : Rules → Parser α) : Parser α := fun s =>
  parser (rulesUpTo (s.upcoming.length + 1)) s

end Verbatim.Grammar
