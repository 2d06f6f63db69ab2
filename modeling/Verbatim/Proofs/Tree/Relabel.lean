import Verbatim.Tree.Stmt

/-!
# Trees with other tokens

A relabelling replaces each token by another one of its kind. A tree is relabelled token by
token and keeps no spans. The bare tree is what is left without places, texts and trivia.
-/

namespace Verbatim

structure Relabelling where
  token : Token → Token
  kind_token : ∀ t, (token t).kind = t.kind

namespace Relabelling

/-- Leaves nothing of a token but its kind. -/
def bare : Relabelling where
  token t := ⟨t.kind, .empty 0, [], []⟩
  kind_token _ := rfl

variable {ρ : Relabelling}

theorem kind_eq {t t' : Token} (h : ρ.token t = ρ.token t') : t.kind = t'.kind := by
  rw [← ρ.kind_token t, ← ρ.kind_token t', h]

end Relabelling

variable (ρ : Relabelling)

namespace Separated

@[simp]
def relabel {α β : Type} (inside : α → β) : Separated α → Separated β
  | one a => one (inside a)
  | cons a t rest => cons (inside a) (ρ.token t) (rest.relabel inside)

end Separated

/-! ## Expressions -/

mutual

@[simp]
def Expr.relabel : Expr → Expr
  | .leaf kind t => .leaf kind (ρ.token t)
  | .strings _ first more => .strings (.empty 0) (ρ.token first) (more.map ρ.token)
  | .display _ kind opener body closer =>
    .display (.empty 0) kind (ρ.token opener) (relabelExprOption body) (ρ.token closer)
  | .applied _ await atom trailers =>
    .applied (.empty 0) (await.map ρ.token) atom.relabel (relabelTrailers trailers)
  | .binary _ kind left op right =>
    .binary (.empty 0) kind left.relabel (ρ.token op) right.relabel
  | .compound _ kind left first second right =>
    .compound (.empty 0) kind left.relabel (ρ.token first) (ρ.token second) right.relabel
  | .unary _ kind op operand => .unary (.empty 0) kind (ρ.token op) operand.relabel
  | .lambda _ keyword params colon body =>
    .lambda (.empty 0) (ρ.token keyword) (relabelParamsOption params) (ρ.token colon)
      body.relabel
  | .conditional _ body ifToken condition elseToken alternative =>
    .conditional (.empty 0) body.relabel (ρ.token ifToken) condition.relabel
      (ρ.token elseToken) alternative.relabel
  | .yield _ keyword value =>
    .yield (.empty 0) (ρ.token keyword) (relabelExprOption value)
  | .yieldFrom _ keyword fromToken value =>
    .yieldFrom (.empty 0) (ρ.token keyword) (ρ.token fromToken) value.relabel
  | .comprehension _ element clause =>
    .comprehension (.empty 0) element.relabel clause.relabel
  | .dictEntry _ key colon value =>
    .dictEntry (.empty 0) key.relabel (ρ.token colon) value.relabel
  | .argument _ name equal value =>
    .argument (.empty 0) name.relabel (ρ.token equal) value.relabel
  | .slice _ lower colon upper step =>
    .slice (.empty 0) (relabelExprOption lower) (ρ.token colon) (relabelExprOption upper)
      (relabelStepOption step)
  | .sequence _ kind items trailing =>
    .sequence (.empty 0) kind (relabelElements items) (trailing.map ρ.token)

@[simp]
def relabelExprOption : Option Expr → Option Expr
  | none => none
  | some e => some e.relabel

@[simp]
def relabelElements : Separated Expr → Separated Expr
  | .one e => .one e.relabel
  | .cons e t rest => .cons e.relabel (ρ.token t) (relabelElements rest)

@[simp]
def Trailer.relabel : Trailer → Trailer
  | .member _ dot name => .member (.empty 0) (ρ.token dot) (ρ.token name)
  | .call _ opener arguments closer =>
    .call (.empty 0) (ρ.token opener) (relabelExprOption arguments) (ρ.token closer)
  | .index _ opener subscripts closer =>
    .index (.empty 0) (ρ.token opener) (relabelExprOption subscripts) (ρ.token closer)

@[simp]
def relabelTrailers : List Trailer → List Trailer
  | [] => []
  | t :: ts => t.relabel :: relabelTrailers ts

@[simp]
def Step.relabel : Step → Step
  | .mk colon value => .mk (ρ.token colon) (relabelExprOption value)

@[simp]
def relabelStepOption : Option Step → Option Step
  | none => none
  | some step => some step.relabel

@[simp]
def Clause.relabel : Clause → Clause
  | .loop _ async forToken targets inToken source next =>
    .loop (.empty 0) (async.map ρ.token) (ρ.token forToken) targets.relabel (ρ.token inToken)
      source.relabel (relabelClauseOption next)
  | .guard _ ifToken condition next =>
    .guard (.empty 0) (ρ.token ifToken) condition.relabel (relabelClauseOption next)

@[simp]
def relabelClauseOption : Option Clause → Option Clause
  | none => none
  | some c => some c.relabel

@[simp]
def TypeHint.relabel : TypeHint → TypeHint
  | .mk _ colon value => .mk (.empty 0) (ρ.token colon) value.relabel

@[simp]
def relabelTypeHintOption : Option TypeHint → Option TypeHint
  | none => none
  | some hint => some hint.relabel

@[simp]
def Declarator.relabel : Declarator → Declarator
  | .mk _ name hint => .mk (.empty 0) (ρ.token name) (relabelTypeHintOption hint)

@[simp]
def Param.relabel : Param → Param
  | .single d => .single d.relabel
  | .withDefault _ d assign value =>
    .withDefault (.empty 0) d.relabel (ρ.token assign) value.relabel
  | .keywordOnly _ star => .keywordOnly (.empty 0) (ρ.token star)
  | .variadic _ star d => .variadic (.empty 0) (ρ.token star) d.relabel
  | .keywordVariadic _ op d => .keywordVariadic (.empty 0) (ρ.token op) d.relabel
  | .positionalOnly slash => .positionalOnly (ρ.token slash)

@[simp]
def relabelParamItems : Separated Param → Separated Param
  | .one p => .one p.relabel
  | .cons p t rest => .cons p.relabel (ρ.token t) (relabelParamItems rest)

@[simp]
def Params.relabel : Params → Params
  | .mk _ items trailing =>
    .mk (.empty 0) (relabelParamItems items) (trailing.map ρ.token)

@[simp]
def relabelParamsOption : Option Params → Option Params
  | none => none
  | some ps => some ps.relabel

end

/-! ## Small statements -/

namespace Introduced

@[simp]
def relabel {α β : Type} (inside : α → β) (part : Introduced α) : Introduced β :=
  ⟨.empty 0, ρ.token part.token, inside part.value⟩

end Introduced

namespace Value

@[simp]
def relabel : Value → Value
  | single e => single (e.relabel ρ)
  | list _ items trailing =>
    list (.empty 0) (relabelElements ρ items) (trailing.map ρ.token)

end Value

namespace AsName

@[simp]
def relabel (asName : AsName) : AsName :=
  Introduced.relabel ρ ρ.token asName

end AsName

namespace DottedName

@[simp]
def relabel (name : DottedName) : DottedName :=
  ⟨.empty 0, name.parts.relabel ρ ρ.token⟩

end DottedName

namespace DottedAsName

@[simp]
def relabel (item : DottedAsName) : DottedAsName :=
  ⟨.empty 0, item.name.relabel ρ, item.asName.map (AsName.relabel ρ)⟩

end DottedAsName

namespace ImportAsName

@[simp]
def relabel (item : ImportAsName) : ImportAsName :=
  ⟨.empty 0, ρ.token item.name, item.asName.map (AsName.relabel ρ)⟩

end ImportAsName

namespace ImportTargets

@[simp]
def relabel : ImportTargets → ImportTargets
  | star token => star (ρ.token token)
  | bare _ names => bare (.empty 0) (names.relabel ρ (ImportAsName.relabel ρ))
  | enclosed _ opener names trailing closer =>
    enclosed (.empty 0) (ρ.token opener) (names.relabel ρ (ImportAsName.relabel ρ))
      (trailing.map ρ.token) (ρ.token closer)

end ImportTargets

namespace Raised

@[simp]
def relabel (raised : Raised) : Raised :=
  ⟨raised.exception.relabel ρ, raised.cause.map (Introduced.relabel ρ (Expr.relabel ρ))⟩

end Raised

namespace Small

@[simp]
def relabel : Small → Small
  | .value v => .value (v.relabel ρ)
  | .assign _ target equal rest =>
    .assign (.empty 0) (target.relabel ρ) (ρ.token equal) (rest.relabel ρ (Value.relabel ρ))
  | .annAssign _ target colon typeHint assigned =>
    .annAssign (.empty 0) (target.relabel ρ) (ρ.token colon) (typeHint.relabel ρ)
      (assigned.map (Introduced.relabel ρ (Value.relabel ρ)))
  | .augAssign _ target op v =>
    .augAssign (.empty 0) (target.relabel ρ) (ρ.token op) (v.relabel ρ)
  | .keyword kind token => .keyword kind (ρ.token token)
  | .return _ word returned =>
    .return (.empty 0) (ρ.token word) (returned.map (Value.relabel ρ))
  | .raise _ word raised =>
    .raise (.empty 0) (ρ.token word) (raised.map (Raised.relabel ρ))
  | .del _ word targets => .del (.empty 0) (ρ.token word) (targets.relabel ρ)
  | .scope _ kind word names =>
    .scope (.empty 0) kind (ρ.token word) (names.relabel ρ ρ.token)
  | .assert _ word test message =>
    .assert (.empty 0) (ρ.token word) (test.relabel ρ)
      (message.map (Introduced.relabel ρ (Expr.relabel ρ)))
  | .importModules _ word names =>
    .importModules (.empty 0) (ρ.token word) (names.relabel ρ (DottedAsName.relabel ρ))
  | .importFrom _ fromToken dots module importToken targets =>
    .importFrom (.empty 0) (ρ.token fromToken) (dots.map ρ.token)
      (module.map (DottedName.relabel ρ)) (ρ.token importToken) (targets.relabel ρ)

end Small

namespace Line

@[simp]
def relabel (line : Line) : Line :=
  ⟨.empty 0, line.statements.relabel ρ (Small.relabel ρ), line.trailing.map ρ.token,
    line.typeComment.map ρ.token, line.newline.map ρ.token⟩

end Line

/-! ## Compound statements -/

namespace WithItem

@[simp]
def relabel (item : WithItem) : WithItem :=
  ⟨.empty 0, item.context.relabel ρ,
    item.target.map (Introduced.relabel ρ (Expr.relabel ρ))⟩

end WithItem

namespace Decorator

@[simp]
def relabel (decorator : Decorator) : Decorator :=
  ⟨.empty 0, ρ.token decorator.mark, decorator.expression.relabel ρ,
    decorator.typeComment.map ρ.token, ρ.token decorator.newline⟩

end Decorator

namespace Caught

@[simp]
def relabel (caught : Caught) : Caught :=
  ⟨caught.test.relabel ρ, caught.asName.map (AsName.relabel ρ)⟩

end Caught

namespace ClassArguments

@[simp]
def relabel (bases : ClassArguments) : ClassArguments :=
  ⟨ρ.token bases.opener, relabelExprOption ρ bases.arguments, ρ.token bases.closer⟩

end ClassArguments

mutual

@[simp]
def Stmt.relabel : Stmt → Stmt
  | .line l => .line (l.relabel ρ)
  | .ifElse _ ifToken condition colon body elifs orelse =>
    .ifElse (.empty 0) (ρ.token ifToken) (condition.relabel ρ) (ρ.token colon) body.relabel
      (relabelElifs elifs) (relabelClause orelse)
  | .whileLoop _ whileToken condition colon body orelse =>
    .whileLoop (.empty 0) (ρ.token whileToken) (condition.relabel ρ) (ρ.token colon)
      body.relabel (relabelClause orelse)
  | .forLoop _ async forToken targets inToken source colon body orelse =>
    .forLoop (.empty 0) (async.map ρ.token) (ρ.token forToken) (targets.relabel ρ)
      (ρ.token inToken) (source.relabel ρ) (ρ.token colon) body.relabel (relabelClause orelse)
  | .tryBlock _ tryToken colon body handlers orelse finalizer =>
    .tryBlock (.empty 0) (ρ.token tryToken) (ρ.token colon) body.relabel
      (relabelHandlers handlers) (relabelClause orelse) (relabelClause finalizer)
  | .withBlock _ async withToken items colon body =>
    .withBlock (.empty 0) (async.map ρ.token) (ρ.token withToken)
      (items.relabel ρ (WithItem.relabel ρ)) (ρ.token colon) body.relabel
  | .funcDef _ decorators async keyword name opener params closer returns colon body =>
    .funcDef (.empty 0) (decorators.map (Decorator.relabel ρ)) (async.map ρ.token)
      (ρ.token keyword) (ρ.token name) (ρ.token opener) (relabelParamsOption ρ params)
      (ρ.token closer) (returns.map (Introduced.relabel ρ (Expr.relabel ρ))) (ρ.token colon)
      body.relabel
  | .classDef _ decorators keyword name arguments colon body =>
    .classDef (.empty 0) (decorators.map (Decorator.relabel ρ)) (ρ.token keyword)
      (ρ.token name) (arguments.map (ClassArguments.relabel ρ)) (ρ.token colon) body.relabel

@[simp]
def Body.relabel : Body → Body
  | .line l => .line (l.relabel ρ)
  | .block _ typeComment newline indent statements dedent =>
    .block (.empty 0) (typeComment.map ρ.token) (ρ.token newline) (ρ.token indent)
      (relabelStmts statements) (ρ.token dedent)

@[simp]
def relabelStmts : List Stmt → List Stmt
  | [] => []
  | s :: ss => s.relabel :: relabelStmts ss

@[simp]
def ElifClause.relabel : ElifClause → ElifClause
  | .mk _ keyword condition colon body =>
    .mk (.empty 0) (ρ.token keyword) (condition.relabel ρ) (ρ.token colon) body.relabel

@[simp]
def relabelElifs : List ElifClause → List ElifClause
  | [] => []
  | c :: cs => c.relabel :: relabelElifs cs

@[simp]
def BlockClause.relabel : BlockClause → BlockClause
  | .mk _ keyword colon body =>
    .mk (.empty 0) (ρ.token keyword) (ρ.token colon) body.relabel

@[simp]
def relabelClause : Option BlockClause → Option BlockClause
  | none => none
  | some c => some c.relabel

@[simp]
def ExceptClause.relabel : ExceptClause → ExceptClause
  | .mk _ keyword caught colon body =>
    .mk (.empty 0) (ρ.token keyword) (caught.map (Caught.relabel ρ)) (ρ.token colon)
      body.relabel

@[simp]
def relabelHandlers : List ExceptClause → List ExceptClause
  | [] => []
  | c :: cs => c.relabel :: relabelHandlers cs

end

/-! ## Roots -/

namespace ModuleTree

@[simp]
def relabel (tree : ModuleTree) : ModuleTree :=
  ⟨.empty 0, relabelStmts ρ tree.statements, ρ.token tree.endOfFile⟩

end ModuleTree

namespace ExpressionTree

@[simp]
def relabel (tree : ExpressionTree) : ExpressionTree :=
  ⟨.empty 0, tree.body.relabel ρ, tree.newlines.map ρ.token, ρ.token tree.endOfFile⟩

end ExpressionTree

namespace SignatureTree

@[simp]
def relabel (tree : SignatureTree) : SignatureTree :=
  ⟨.empty 0, ρ.token tree.opener, relabelExprOption ρ tree.argumentTypes,
    ρ.token tree.closer, ρ.token tree.arrow, tree.result.relabel ρ, tree.newlines.map ρ.token,
    ρ.token tree.endOfFile⟩

end SignatureTree

/-! ## Optional parts and lists -/

theorem relabelExprOption_eq (o : Option Expr) :
    relabelExprOption ρ o = o.map (Expr.relabel ρ) := by
  cases o <;> simp [relabelExprOption]

theorem relabelElements_eq (items : Separated Expr) :
    relabelElements ρ items = items.relabel ρ (Expr.relabel ρ) := by
  induction items with
  | one e => simp [relabelElements, Separated.relabel]
  | cons e t rest ih => simp [relabelElements, Separated.relabel, ih]

theorem relabelTrailers_eq (ts : List Trailer) :
    relabelTrailers ρ ts = ts.map (Trailer.relabel ρ) := by
  induction ts with
  | nil => simp [relabelTrailers]
  | cons t ts ih => simp [relabelTrailers, ih]

theorem relabelStepOption_eq (o : Option Step) :
    relabelStepOption ρ o = o.map (Step.relabel ρ) := by
  cases o <;> simp [relabelStepOption]

theorem relabelClauseOption_eq (o : Option Clause) :
    relabelClauseOption ρ o = o.map (Clause.relabel ρ) := by
  cases o <;> simp [relabelClauseOption]

theorem relabelTypeHintOption_eq (o : Option TypeHint) :
    relabelTypeHintOption ρ o = o.map (TypeHint.relabel ρ) := by
  cases o <;> simp [relabelTypeHintOption]

theorem relabelParamItems_eq (items : Separated Param) :
    relabelParamItems ρ items = items.relabel ρ (Param.relabel ρ) := by
  induction items with
  | one p => simp [relabelParamItems, Separated.relabel]
  | cons p t rest ih => simp [relabelParamItems, Separated.relabel, ih]

theorem relabelParamsOption_eq (o : Option Params) :
    relabelParamsOption ρ o = o.map (Params.relabel ρ) := by
  cases o <;> simp [relabelParamsOption]

theorem relabelStmts_eq (ss : List Stmt) : relabelStmts ρ ss = ss.map (Stmt.relabel ρ) := by
  induction ss with
  | nil => simp [relabelStmts]
  | cons s ss ih => simp [relabelStmts, ih]

theorem relabelElifs_eq (cs : List ElifClause) :
    relabelElifs ρ cs = cs.map (ElifClause.relabel ρ) := by
  induction cs with
  | nil => simp [relabelElifs]
  | cons c cs ih => simp [relabelElifs, ih]

theorem relabelClause_eq (o : Option BlockClause) :
    relabelClause ρ o = o.map (BlockClause.relabel ρ) := by
  cases o <;> simp [relabelClause]

theorem relabelHandlers_eq (cs : List ExceptClause) :
    relabelHandlers ρ cs = cs.map (ExceptClause.relabel ρ) := by
  induction cs with
  | nil => simp [relabelHandlers]
  | cons c cs ih => simp [relabelHandlers, ih]

end Verbatim
