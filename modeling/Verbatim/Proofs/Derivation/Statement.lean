import Verbatim.Grammar.Statement
import Verbatim.Proofs.Derivation.Expression

/-!
# Derivations of statements

What the grammar allows of statements, again without a parser. A small statement holds
expressions only, so its productions are plain conditions on its parts; a compound statement
holds bodies, which hold statements.
-/

namespace Verbatim

/-- Items of some sort, with separators of one kind between them. -/
structure Separated.By {α : Type} (separator : TokenKind) (inside : α → Prop)
    (row : Separated α) : Prop where
  items : ∀ a ∈ row.items, inside a
  separators : ∀ t ∈ row.separators, t.kind = separator

structure Introduced.By {α : Type} (kind : TokenKind) (inside : α → Prop)
    (part : Introduced α) : Prop where
  token : part.token.kind = kind
  value : inside part.value

/-! ## Small statements -/

namespace SimpleKeyword

def tokenKind : SimpleKeyword → TokenKind
  | pass => .kwPass
  | .break => .kwBreak
  | .continue => .kwContinue

end SimpleKeyword

namespace ScopeKind

def tokenKind : ScopeKind → TokenKind
  | global => .kwGlobal
  | .nonlocal => .kwNonlocal

end ScopeKind

def Value.Derived : Value → Prop
  | single e => Derives .value (.expr e)
  | list span items trailing =>
    Derives (.list .testList .testOrStar) (.expr (.sequence span .testList items trailing))

/-- An optional alias is a name after `as`. -/
def AsName.Derived (asName : Option AsName) : Prop :=
  ∀ part, asName = some part → part.By .kwAs fun t => t.kind = .name

def DottedName.Derived (name : DottedName) : Prop :=
  name.parts.By .dot fun t => t.kind = .name

structure DottedAsName.Derived (item : DottedAsName) : Prop where
  name : item.name.Derived
  asName : AsName.Derived item.asName

structure ImportAsName.Derived (item : ImportAsName) : Prop where
  name : item.name.kind = .name
  asName : AsName.Derived item.asName

def ImportTargets.Derived : ImportTargets → Prop
  | star token => token.kind = .star
  | bare _ names => names.By .comma ImportAsName.Derived
  | enclosed _ opener names trailing closer =>
    opener.kind = .leftParen ∧ names.By .comma ImportAsName.Derived ∧
      (∀ t, trailing = some t → t.kind = .comma) ∧ closer.kind = .rightParen

structure Raised.Derived (raised : Raised) : Prop where
  exception : Derives .test (.expr raised.exception)
  cause : ∀ part, raised.cause = some part → part.By .kwFrom fun e => Derives .test (.expr e)

def Small.Derived : Small → Prop
  | .value v => v.Derived
  | .assign _ target equal rest =>
    target.Derived ∧ equal.kind = .equal ∧ rest.By .equal Value.Derived
  | .annAssign _ target colon typeHint assigned =>
    Derives .value (.expr target) ∧ colon.kind = .colon ∧ Derives .test (.expr typeHint) ∧
      ∀ part, assigned = some part → part.By .equal Value.Derived
  | .augAssign _ target op v =>
    Derives .value (.expr target) ∧ op.kind.isAugmentedAssign = true ∧ v.Derived
  | .keyword kind token => token.kind = kind.tokenKind
  | .return _ word returned => word.kind = .kwReturn ∧ ∀ v, returned = some v → v.Derived
  | .raise _ word raised => word.kind = .kwRaise ∧ ∀ r, raised = some r → r.Derived
  | .del _ word targets =>
    word.kind = .kwDel ∧ Derives (.list .exprList .exprOrStar) (.expr targets)
  | .scope _ kind word names =>
    word.kind = kind.tokenKind ∧ names.By .comma fun t => t.kind = .name
  | .assert _ word test message =>
    word.kind = .kwAssert ∧ Derives .test (.expr test) ∧
      ∀ part, message = some part → part.By .comma fun e => Derives .test (.expr e)
  | .importModules _ word names =>
    word.kind = .kwImport ∧ names.By .comma DottedAsName.Derived
  | .importFrom _ fromToken dots module importToken targets =>
    fromToken.kind = .kwFrom ∧ (∀ t ∈ dots, t.kind = .dot ∨ t.kind = .ellipsis) ∧
      (∀ name, module = some name → name.Derived) ∧ (dots = [] → module.isSome = true) ∧
      importToken.kind = .kwImport ∧ targets.Derived

structure Line.Derived (line : Line) : Prop where
  statements : line.statements.By .semicolon Small.Derived
  trailing : ∀ t, line.trailing = some t → t.kind = .semicolon
  typeComment : ∀ t, line.typeComment = some t → t.kind = .typeComment
  newline : ∀ t, line.newline = some t → t.kind = .newline

/-! ## Compound statements -/

structure WithItem.Derived (item : WithItem) : Prop where
  context : Derives .test (.expr item.context)
  target : ∀ part, item.target = some part → part.By .kwAs fun e => Derives .expr (.expr e)

structure Decorator.Derived (decorator : Decorator) : Prop where
  mark : decorator.mark.kind = .atSign
  expression : Derives .named (.expr decorator.expression)
  typeComment : ∀ t, decorator.typeComment = some t → t.kind = .typeComment
  newline : decorator.newline.kind = .newline

structure Caught.Derived (caught : Caught) : Prop where
  test : Derives .test (.expr caught.test)
  asName : AsName.Derived caught.asName

structure ClassArguments.Derived (bases : ClassArguments) : Prop where
  opener : bases.opener.kind = .leftParen
  arguments : ∀ e, bases.arguments = some e →
    Derives (.comprehensionOrList .argList .argument) (.expr e)
  closer : bases.closer.kind = .rightParen

/-- A statement or a part of one that holds statements. A clause comes with the kind of its
keyword. -/
inductive Compound where
  | stmt (stmt : Stmt)
  | body (body : Body)
  | elif (clause : ElifClause)
  | clause (keyword : TokenKind) (clause : BlockClause)
  | handler (handler : ExceptClause)

namespace Compound

inductive Derived : Compound → Prop
  | line {l : Line} (hl : l.Derived) : Derived (.stmt (.line l))
  | ifElse {span : Span} {ifToken colon : Token} {condition : Expr} {body : Body}
      {elifs : List ElifClause} {orelse : Option BlockClause} (hif : ifToken.kind = .kwIf)
      (hcondition : Derives .named (.expr condition)) (hcolon : colon.kind = .colon)
      (hbody : Derived (.body body)) (helifs : ∀ c ∈ elifs, Derived (.elif c))
      (horelse : ∀ c, orelse = some c → Derived (.clause .kwElse c)) :
      Derived (.stmt (.ifElse span ifToken condition colon body elifs orelse))
  | whileLoop {span : Span} {whileToken colon : Token} {condition : Expr} {body : Body}
      {orelse : Option BlockClause} (hwhile : whileToken.kind = .kwWhile)
      (hcondition : Derives .named (.expr condition)) (hcolon : colon.kind = .colon)
      (hbody : Derived (.body body))
      (horelse : ∀ c, orelse = some c → Derived (.clause .kwElse c)) :
      Derived (.stmt (.whileLoop span whileToken condition colon body orelse))
  | forLoop {span : Span} {async : Option Token} {forToken inToken colon : Token}
      {targets source : Expr} {body : Body} {orelse : Option BlockClause}
      (hasync : ∀ t, async = some t → t.kind = .kwAsync) (hfor : forToken.kind = .kwFor)
      (htargets : Derives (.list .exprList .exprOrStar) (.expr targets))
      (hin : inToken.kind = .kwIn) (hsource : Derives (.list .testList .test) (.expr source))
      (hcolon : colon.kind = .colon) (hbody : Derived (.body body))
      (horelse : ∀ c, orelse = some c → Derived (.clause .kwElse c)) :
      Derived (.stmt (.forLoop span async forToken targets inToken source colon body orelse))
  | tryBlock {span : Span} {tryToken colon : Token} {body : Body}
      {handlers : List ExceptClause} {orelse finalizer : Option BlockClause}
      (htry : tryToken.kind = .kwTry) (hcolon : colon.kind = .colon)
      (hbody : Derived (.body body)) (hhandlers : ∀ c ∈ handlers, Derived (.handler c))
      (horelse : ∀ c, orelse = some c → Derived (.clause .kwElse c))
      (hfinalizer : ∀ c, finalizer = some c → Derived (.clause .kwFinally c))
      (hnone : handlers = [] → orelse = none ∧ finalizer.isSome = true) :
      Derived (.stmt (.tryBlock span tryToken colon body handlers orelse finalizer))
  | withBlock {span : Span} {async : Option Token} {withToken colon : Token}
      {items : Separated WithItem} {body : Body}
      (hasync : ∀ t, async = some t → t.kind = .kwAsync) (hwith : withToken.kind = .kwWith)
      (hitems : items.By .comma WithItem.Derived) (hcolon : colon.kind = .colon)
      (hbody : Derived (.body body)) :
      Derived (.stmt (.withBlock span async withToken items colon body))
  | funcDef {span : Span} {decorators : List Decorator} {async : Option Token}
      {keyword name opener closer colon : Token} {params : Option Params}
      {returns : Option (Introduced Expr)} {body : Body}
      (hdecorators : ∀ d ∈ decorators, d.Derived)
      (hasync : ∀ t, async = some t → t.kind = .kwAsync) (hkeyword : keyword.kind = .kwDef)
      (hname : name.kind = .name) (hopener : opener.kind = .leftParen)
      (hparams : ∀ ps, params = some ps → Derives (.params true) (.params true ps))
      (hcloser : closer.kind = .rightParen)
      (hreturns : ∀ part, returns = some part →
        part.By .arrow fun e => Derives .test (.expr e))
      (hcolon : colon.kind = .colon) (hbody : Derived (.body body)) :
      Derived (.stmt (.funcDef span decorators async keyword name opener params closer returns
        colon body))
  | classDef {span : Span} {decorators : List Decorator} {keyword name colon : Token}
      {arguments : Option ClassArguments} {body : Body}
      (hdecorators : ∀ d ∈ decorators, d.Derived) (hkeyword : keyword.kind = .kwClass)
      (hname : name.kind = .name) (harguments : ∀ a, arguments = some a → a.Derived)
      (hcolon : colon.kind = .colon) (hbody : Derived (.body body)) :
      Derived (.stmt (.classDef span decorators keyword name arguments colon body))
  | bodyLine {l : Line} (hl : l.Derived) : Derived (.body (.line l))
  | block {span : Span} {typeComment : Option Token} {newline indent dedent : Token}
      {statements : List Stmt} (hcomment : ∀ t, typeComment = some t → t.kind = .typeComment)
      (hnewline : newline.kind = .newline) (hindent : indent.kind = .indent)
      (hstatements : ∀ s ∈ statements, Derived (.stmt s)) (hdedent : dedent.kind = .dedent) :
      Derived (.body (.block span typeComment newline indent statements dedent))
  | elif {span : Span} {keyword colon : Token} {condition : Expr} {body : Body}
      (hkeyword : keyword.kind = .kwElif) (hcondition : Derives .named (.expr condition))
      (hcolon : colon.kind = .colon) (hbody : Derived (.body body)) :
      Derived (.elif (.mk span keyword condition colon body))
  | clause {span : Span} {keyword colon : Token} {body : Body} (hcolon : colon.kind = .colon)
      (hbody : Derived (.body body)) :
      Derived (.clause keyword.kind (.mk span keyword colon body))
  | handler {span : Span} {keyword colon : Token} {caught : Option Caught} {body : Body}
      (hkeyword : keyword.kind = .kwExcept) (hcaught : ∀ c, caught = some c → c.Derived)
      (hcolon : colon.kind = .colon) (hbody : Derived (.body body)) :
      Derived (.handler (.mk span keyword caught colon body))

end Compound

/-! ## Roots -/

structure ModuleTree.Derived (tree : ModuleTree) : Prop where
  statements : ∀ s ∈ tree.statements, Compound.Derived (.stmt s)
  endOfFile : tree.endOfFile.kind = .endOfFile

structure ExpressionTree.Derived (tree : ExpressionTree) : Prop where
  body : Derives (.list .testList .test) (.expr tree.body)
  newlines : ∀ t ∈ tree.newlines, t.kind = .newline
  endOfFile : tree.endOfFile.kind = .endOfFile

structure SignatureTree.Derived (tree : SignatureTree) : Prop where
  opener : tree.opener.kind = .leftParen
  argumentTypes : ∀ e, tree.argumentTypes = some e →
    Derives (.list .typeList .typeElement) (.expr e)
  closer : tree.closer.kind = .rightParen
  arrow : tree.arrow.kind = .arrow
  result : Derives .test (.expr tree.result)
  newlines : ∀ t ∈ tree.newlines, t.kind = .newline
  endOfFile : tree.endOfFile.kind = .endOfFile

/-! ## Nodes -/

/-- What the grammar allows of a node, wherever it stands. -/
def Node.Derived : Node → Prop
  | .value v => v.Derived
  | .small s => s.Derived
  | .line l => l.Derived
  | .block _ statements => ∀ s ∈ statements, Compound.Derived (.stmt s)
  | .stmt s => Compound.Derived (.stmt s)
  | n => ∃ P, Derives P n

end Verbatim
