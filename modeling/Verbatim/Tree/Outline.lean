import Verbatim.Tree.Node

/-!
# Outlines

The outline of a tree forgets the places that the parts of a node have in it and keeps
their order in the source: a node with its tokens and inner nodes, from left to right. Some
parts of a statement record a span and are no nodes; they stand in the outline as such.
Everything that is said of all nodes alike is said of outlines.
-/

namespace Verbatim

inductive Outline where
  | token (token : Token)
  | node (node : Node) (children : List Outline)
  /-- A part that records a span and is no node. -/
  | part (span : Span) (children : List Outline)

namespace Outline

mutual

def tokens : Outline → List Token
  | token t => [t]
  | node _ children => tokensOf children
  | part _ children => tokensOf children

def tokensOf : List Outline → List Token
  | [] => []
  | piece :: pieces => piece.tokens ++ tokensOf pieces

end

theorem tokensOf_append (left right : List Outline) :
    tokensOf (left ++ right) = tokensOf left ++ tokensOf right := by
  induction left with
  | nil => rfl
  | cons piece pieces ih => simp [tokensOf, ih]

theorem tokensOf_map_token (ts : List Token) : tokensOf (ts.map token) = ts := by
  induction ts with
  | nil => rfl
  | cons t ts ih => simp [tokensOf, tokens, ih]

def children : Outline → List Outline
  | token _ => []
  | node _ children => children
  | part _ children => children

def span : Outline → Span
  | token t => t.span
  | node n _ => n.span
  | part span _ => span

def sourceOf (pieces : List Outline) : Text :=
  Text.ofTokens (tokensOf pieces)

def ofOption (t : Option Token) : List Outline :=
  t.toList.map token

end Outline

namespace Separated

def pieces {α : Type} (inside : α → List Outline) : Separated α → List Outline
  | one a => inside a
  | cons a t rest => inside a ++ .token t :: rest.pieces inside

end Separated

/-! ## Expressions -/

mutual

def Expr.pieces : Expr → List Outline
  | .leaf _ token => [.token token]
  | .strings _ first more => .token first :: more.map .token
  | .display _ _ opener body closer =>
    .token opener :: (exprOptionPieces body ++ [.token closer])
  | .applied _ await atom trailers =>
    Outline.ofOption await ++ .node (.expr atom) atom.pieces :: trailersPieces trailers
  | .binary _ _ left op right =>
    [.node (.expr left) left.pieces, .token op, .node (.expr right) right.pieces]
  | .compound _ _ left first second right =>
    [.node (.expr left) left.pieces, .token first, .token second,
      .node (.expr right) right.pieces]
  | .unary _ _ op operand => [.token op, .node (.expr operand) operand.pieces]
  | .lambda _ keyword params colon body =>
    .token keyword :: (paramsOptionPieces params ++
      [.token colon, .node (.expr body) body.pieces])
  | .conditional _ body ifToken condition elseToken alternative =>
    [.node (.expr body) body.pieces, .token ifToken, .node (.expr condition) condition.pieces,
      .token elseToken, .node (.expr alternative) alternative.pieces]
  | .yield _ keyword value => .token keyword :: exprOptionPieces value
  | .yieldFrom _ keyword fromToken value =>
    [.token keyword, .token fromToken, .node (.expr value) value.pieces]
  | .comprehension _ element clause =>
    [.node (.expr element) element.pieces, .node (.clause clause) clause.pieces]
  | .dictEntry _ key colon value =>
    [.node (.expr key) key.pieces, .token colon, .node (.expr value) value.pieces]
  | .argument _ name equal value =>
    [.node (.expr name) name.pieces, .token equal, .node (.expr value) value.pieces]
  | .slice _ lower colon upper step =>
    exprOptionPieces lower ++ .token colon :: (exprOptionPieces upper ++ stepOptionPieces step)
  | .sequence _ _ items trailing => elementsPieces items ++ Outline.ofOption trailing

def exprOptionPieces : Option Expr → List Outline
  | none => []
  | some e => [.node (.expr e) e.pieces]

def elementsPieces : Separated Expr → List Outline
  | .one e => [.node (.expr e) e.pieces]
  | .cons e separator rest =>
    .node (.expr e) e.pieces :: .token separator :: elementsPieces rest

def Trailer.pieces : Trailer → List Outline
  | .member _ dot name => [.token dot, .token name]
  | .call _ opener arguments closer =>
    .token opener :: (exprOptionPieces arguments ++ [.token closer])
  | .index _ opener subscripts closer =>
    .token opener :: (exprOptionPieces subscripts ++ [.token closer])

def trailersPieces : List Trailer → List Outline
  | [] => []
  | t :: ts => .node (.trailer t) t.pieces :: trailersPieces ts

def Step.pieces : Step → List Outline
  | .mk colon value => .token colon :: exprOptionPieces value

def stepOptionPieces : Option Step → List Outline
  | none => []
  | some step => step.pieces

/-- The next clause is a node inside the one before it. -/
def Clause.pieces : Clause → List Outline
  | .loop _ async forToken targets inToken source next =>
    Outline.ofOption async ++
      ([.token forToken, .node (.expr targets) targets.pieces, .token inToken,
        .node (.expr source) source.pieces] ++ clauseOptionPieces next)
  | .guard _ ifToken condition next =>
    [.token ifToken, .node (.expr condition) condition.pieces] ++ clauseOptionPieces next

def clauseOptionPieces : Option Clause → List Outline
  | none => []
  | some c => [.node (.clause c) c.pieces]

def TypeHint.pieces : TypeHint → List Outline
  | .mk _ colon value => [.token colon, .node (.expr value) value.pieces]

def typeHintOptionPieces : Option TypeHint → List Outline
  | none => []
  | some hint => [.part hint.span hint.pieces]

def Declarator.pieces : Declarator → List Outline
  | .mk _ name hint => .token name :: typeHintOptionPieces hint

/-- A parameter that is only a name is the node of that name. -/
def Param.outline : Param → Outline
  | .single d => .node (.declarator d) d.pieces
  | .withDefault span d assign value =>
    .node (.param (.withDefault span d assign value))
      [.node (.declarator d) d.pieces, .token assign, .node (.expr value) value.pieces]
  | .keywordOnly span star => .node (.param (.keywordOnly span star)) [.token star]
  | .variadic span star d =>
    .node (.param (.variadic span star d)) [.token star, .node (.declarator d) d.pieces]
  | .keywordVariadic span op d =>
    .node (.param (.keywordVariadic span op d)) [.token op, .node (.declarator d) d.pieces]
  | .positionalOnly slash => .node (.param (.positionalOnly slash)) [.token slash]

def paramItemsPieces : Separated Param → List Outline
  | .one p => [p.outline]
  | .cons p separator rest => p.outline :: .token separator :: paramItemsPieces rest

def Params.pieces : Params → List Outline
  | .mk _ items trailing => paramItemsPieces items ++ Outline.ofOption trailing

def paramsOptionPieces : Option Params → List Outline
  | none => []
  | some ps => [.node (.params false ps) ps.pieces]

end

def Expr.outline (e : Expr) : Outline :=
  .node (.expr e) e.pieces

/-! ## Small statements -/

namespace Value

def pieces : Value → List Outline
  | single value => [value.outline]
  | list _ items trailing => elementsPieces items ++ Outline.ofOption trailing

def outline (v : Value) : Outline :=
  .node (.value v) v.pieces

end Value

namespace Introduced

variable {α : Type}

def outline (inside : α → Outline) (part : Introduced α) : Outline :=
  .part part.span [.token part.token, inside part.value]

def optionPieces (inside : α → Outline) (part : Option (Introduced α)) : List Outline :=
  (part.map (outline inside)).toList

end Introduced

namespace DottedName

def pieces (name : DottedName) : List Outline :=
  name.parts.pieces fun part => [.token part]

def outline (name : DottedName) : Outline :=
  .part name.span name.pieces

end DottedName

namespace DottedAsName

def pieces (name : DottedAsName) : List Outline :=
  name.name.outline :: Introduced.optionPieces .token name.asName

def outline (name : DottedAsName) : Outline :=
  .part name.span name.pieces

end DottedAsName

namespace ImportAsName

def pieces (name : ImportAsName) : List Outline :=
  .token name.name :: Introduced.optionPieces .token name.asName

def outline (name : ImportAsName) : Outline :=
  .part name.span name.pieces

end ImportAsName

namespace ImportTargets

def outline : ImportTargets → Outline
  | star token => .token token
  | bare span names => .part span (names.pieces fun name => [name.outline])
  | enclosed span opener names trailing closer =>
    .part span (.token opener :: ((names.pieces fun name => [name.outline]) ++
      Outline.ofOption trailing ++ [.token closer]))

end ImportTargets

namespace Raised

def pieces (raised : Raised) : List Outline :=
  raised.exception.outline :: Introduced.optionPieces Expr.outline raised.cause

end Raised

namespace Small

def pieces : Small → List Outline
  | .value v => v.pieces
  | .assign _ target equal rest =>
    target.outline :: .token equal :: rest.pieces fun v => [v.outline]
  | .annAssign _ target colon typeHint assigned =>
    [target.outline, .token colon, typeHint.outline] ++
      Introduced.optionPieces Value.outline assigned
  | .augAssign _ target op v => [target.outline, .token op, v.outline]
  | .keyword _ word => [.token word]
  | .return _ word returned => .token word :: returned.elim [] fun v => [v.outline]
  | .raise _ word raised => .token word :: raised.elim [] Raised.pieces
  | .del _ word targets => [.token word, targets.outline]
  | .scope _ _ word names => .token word :: names.pieces fun name => [.token name]
  | .assert _ word test message =>
    .token word :: test.outline :: Introduced.optionPieces Expr.outline message
  | .importModules _ word names => .token word :: names.pieces fun name => [name.outline]
  | .importFrom _ fromToken dots module importToken targets =>
    .token fromToken :: (dots.map .token ++ (module.map DottedName.outline).toList ++
      [.token importToken, targets.outline])

/-- A value that stands as a statement is one node, not two. -/
def outline : Small → Outline
  | .value v => v.outline
  | s => .node (.small s) s.pieces

end Small

namespace Line

def pieces (line : Line) : List Outline :=
  (line.statements.pieces fun s => [s.outline]) ++ Outline.ofOption line.trailing ++
    Outline.ofOption line.typeComment ++ Outline.ofOption line.newline

def outline (line : Line) : Outline :=
  .node (.line line) line.pieces

end Line

/-! ## Compound statements -/

namespace WithItem

def pieces (item : WithItem) : List Outline :=
  item.context.outline :: Introduced.optionPieces Expr.outline item.target

def outline (item : WithItem) : Outline :=
  .part item.span item.pieces

end WithItem

namespace Decorator

def pieces (decorator : Decorator) : List Outline :=
  [.token decorator.mark, decorator.expression.outline] ++
    Outline.ofOption decorator.typeComment ++ [.token decorator.newline]

def outline (decorator : Decorator) : Outline :=
  .part decorator.span decorator.pieces

end Decorator

namespace Caught

def pieces (caught : Caught) : List Outline :=
  caught.test.outline :: Introduced.optionPieces .token caught.asName

end Caught

namespace ClassArguments

def pieces (arguments : ClassArguments) : List Outline :=
  .token arguments.opener :: (exprOptionPieces arguments.arguments ++ [.token arguments.closer])

end ClassArguments

mutual

def Stmt.pieces : Stmt → List Outline
  | .line l => l.pieces
  | .ifElse _ ifToken condition colon body elifs orelse =>
    [.token ifToken, condition.outline, .token colon, body.outline] ++
      (elifsPieces elifs ++ blockClausePieces orelse)
  | .whileLoop _ whileToken condition colon body orelse =>
    [.token whileToken, condition.outline, .token colon, body.outline] ++
      blockClausePieces orelse
  | .forLoop _ async forToken targets inToken source colon body orelse =>
    Outline.ofOption async ++
      ([.token forToken, targets.outline, .token inToken, source.outline, .token colon,
        body.outline] ++ blockClausePieces orelse)
  | .tryBlock _ tryToken colon body handlers orelse finalizer =>
    [.token tryToken, .token colon, body.outline] ++
      (handlersPieces handlers ++ (blockClausePieces orelse ++ blockClausePieces finalizer))
  | .withBlock _ async withToken items colon body =>
    Outline.ofOption async ++ .token withToken :: ((items.pieces fun item => [item.outline]) ++
      [.token colon, body.outline])
  | .funcDef _ decorators async keyword name opener params closer returns colon body =>
    decorators.map Decorator.outline ++ (Outline.ofOption async ++
      ([.token keyword, .token name, .token opener] ++
        ((params.elim [] fun ps => [.node (.params true ps) ps.pieces]) ++
          .token closer :: (Introduced.optionPieces Expr.outline returns ++
            [.token colon, body.outline]))))
  | .classDef _ decorators keyword name arguments colon body =>
    decorators.map Decorator.outline ++ ([.token keyword, .token name] ++
      (arguments.elim [] ClassArguments.pieces ++ [.token colon, body.outline]))

/-- A body on the line of its colon is that line, and otherwise a block of its own. -/
def Body.outline : Body → Outline
  | .line l => l.outline
  | .block span typeComment newline indent statements dedent =>
    .node (.block span statements) (Outline.ofOption typeComment ++
      .token newline :: .token indent :: (stmtsPieces statements ++ [.token dedent]))

def stmtsPieces : List Stmt → List Outline
  | [] => []
  | .line l :: rest => l.outline :: stmtsPieces rest
  | s :: rest => .node (.stmt s) s.pieces :: stmtsPieces rest

def ElifClause.outline : ElifClause → Outline
  | .mk span keyword condition colon body =>
    .part span [.token keyword, condition.outline, .token colon, body.outline]

def elifsPieces : List ElifClause → List Outline
  | [] => []
  | clause :: clauses => clause.outline :: elifsPieces clauses

def BlockClause.outline : BlockClause → Outline
  | .mk span keyword colon body => .part span [.token keyword, .token colon, body.outline]

def blockClausePieces : Option BlockClause → List Outline
  | none => []
  | some clause => [clause.outline]

def ExceptClause.outline : ExceptClause → Outline
  | .mk span keyword caught colon body =>
    .part span
      (.token keyword :: (caught.elim [] Caught.pieces ++ [.token colon, body.outline]))

def handlersPieces : List ExceptClause → List Outline
  | [] => []
  | handler :: handlers => handler.outline :: handlersPieces handlers

end

/-- A logical line is one node, not a statement around one. -/
def Stmt.outline : Stmt → Outline
  | .line l => l.outline
  | s => .node (.stmt s) s.pieces

/-! ## Roots -/

namespace ModuleTree

def pieces (tree : ModuleTree) : List Outline :=
  stmtsPieces tree.statements ++ [.token tree.endOfFile]

end ModuleTree

namespace ExpressionTree

def pieces (tree : ExpressionTree) : List Outline :=
  tree.body.outline :: (tree.newlines.map .token ++ [.token tree.endOfFile])

end ExpressionTree

namespace SignatureTree

def pieces (tree : SignatureTree) : List Outline :=
  .token tree.opener :: (exprOptionPieces tree.argumentTypes ++
    ([.token tree.closer, .token tree.arrow, tree.result.outline] ++
      (tree.newlines.map .token ++ [.token tree.endOfFile])))

end SignatureTree

end Verbatim
