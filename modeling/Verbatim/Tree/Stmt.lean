import Verbatim.Tree.Expr

/-!
# Statements

A logical line holds small statements; a compound statement owns bodies, each of which is
a line or an indented block. A clause such as `else` belongs to its compound statement
and is no statement of its own.
-/

namespace Verbatim

/-! ## Small statements -/

structure Introduced (α : Type) where
  span : Span
  token : Token
  value : α

/-- An expression that stands as a statement or as one side of an assignment. -/
inductive Value where
  | single (value : Expr)
  | list (span : Span) (items : Separated Expr) (trailing : Option Token)

inductive SimpleKeyword where
  | pass | break | continue
deriving DecidableEq, Repr

inductive ScopeKind where
  | global | nonlocal
deriving DecidableEq, Repr

abbrev AsName := Introduced Token

structure DottedName where
  span : Span
  parts : Separated Token

structure DottedAsName where
  span : Span
  name : DottedName
  asName : Option AsName

structure ImportAsName where
  span : Span
  name : Token
  asName : Option AsName

inductive ImportTargets where
  | star (star : Token)
  | bare (span : Span) (names : Separated ImportAsName)
  | enclosed (span : Span) (opener : Token) (names : Separated ImportAsName)
      (trailing : Option Token) (closer : Token)

structure Raised where
  exception : Expr
  cause : Option (Introduced Expr)

inductive Small where
  | value (value : Value)
  /-- The last item of `rest` is what is assigned; the others are targets too. -/
  | assign (span : Span) (target : Value) (equal : Token) (rest : Separated Value)
  | annAssign (span : Span) (target : Expr) (colon : Token) (typeHint : Expr)
      (value : Option (Introduced Value))
  | augAssign (span : Span) (target : Expr) (op : Token) (value : Value)
  | keyword (kind : SimpleKeyword) (token : Token)
  | return (span : Span) (keyword : Token) (value : Option Value)
  | raise (span : Span) (keyword : Token) (raised : Option Raised)
  | del (span : Span) (keyword : Token) (targets : Expr)
  | scope (span : Span) (kind : ScopeKind) (keyword : Token) (names : Separated Token)
  | assert (span : Span) (keyword : Token) (test : Expr) (message : Option (Introduced Expr))
  | importModules (span : Span) (keyword : Token) (names : Separated DottedAsName)
  | importFrom (span : Span) (fromToken : Token) (dots : List Token)
      (module : Option DottedName) (importToken : Token) (targets : ImportTargets)

/-- A logical line. Its line break is absent where a block or the source ends. -/
structure Line where
  span : Span
  statements : Separated Small
  trailing : Option Token
  typeComment : Option Token
  newline : Option Token

/-! ## Compound statements -/

structure WithItem where
  span : Span
  context : Expr
  target : Option (Introduced Expr)

structure Decorator where
  span : Span
  mark : Token
  expression : Expr
  typeComment : Option Token
  newline : Token

structure Caught where
  test : Expr
  asName : Option AsName

structure ClassArguments where
  opener : Token
  arguments : Option Expr
  closer : Token

mutual

inductive Stmt where
  | line (line : Line)
  | ifElse (span : Span) (ifToken : Token) (condition : Expr) (colon : Token) (body : Body)
      (elifs : List ElifClause) (orelse : Option BlockClause)
  | whileLoop (span : Span) (whileToken : Token) (condition : Expr) (colon : Token)
      (body : Body) (orelse : Option BlockClause)
  | forLoop (span : Span) (async : Option Token) (forToken : Token) (targets : Expr)
      (inToken : Token) (source : Expr) (colon : Token) (body : Body)
      (orelse : Option BlockClause)
  | tryBlock (span : Span) (tryToken colon : Token) (body : Body)
      (handlers : List ExceptClause) (orelse finalizer : Option BlockClause)
  | withBlock (span : Span) (async : Option Token) (withToken : Token)
      (items : Separated WithItem) (colon : Token) (body : Body)
  | funcDef (span : Span) (decorators : List Decorator) (async : Option Token)
      (keyword name opener : Token) (params : Option Params) (closer : Token)
      (returns : Option (Introduced Expr)) (colon : Token) (body : Body)
  | classDef (span : Span) (decorators : List Decorator) (keyword name : Token)
      (arguments : Option ClassArguments) (colon : Token) (body : Body)

inductive Body where
  | line (line : Line)
  | block (span : Span) (typeComment : Option Token) (newline indent : Token)
      (statements : List Stmt) (dedent : Token)

inductive ElifClause where
  | mk (span : Span) (keyword : Token) (condition : Expr) (colon : Token) (body : Body)

inductive BlockClause where
  | mk (span : Span) (keyword colon : Token) (body : Body)

inductive ExceptClause where
  | mk (span : Span) (keyword : Token) (caught : Option Caught) (colon : Token) (body : Body)

end

/-! ## Roots -/

structure ModuleTree where
  span : Span
  statements : List Stmt
  endOfFile : Token

structure ExpressionTree where
  span : Span
  body : Expr
  newlines : List Token
  endOfFile : Token

structure SignatureTree where
  span : Span
  opener : Token
  argumentTypes : Option Expr
  closer : Token
  arrow : Token
  result : Expr
  newlines : List Token
  endOfFile : Token

/-! ## Recorded spans -/

def Value.span : Value → Span
  | .single value => value.span
  | .list span _ _ => span

def Small.span : Small → Span
  | .value v => v.span
  | .assign span _ _ _ | .annAssign span _ _ _ _ | .augAssign span _ _ _ | .return span _ _
  | .raise span _ _ | .del span _ _ | .scope span _ _ _ | .assert span _ _ _
  | .importModules span _ _ | .importFrom span _ _ _ _ _ => span
  | .keyword _ token => token.span

def Stmt.span : Stmt → Span
  | .line l => l.span
  | .ifElse span _ _ _ _ _ _ | .whileLoop span _ _ _ _ _ | .forLoop span _ _ _ _ _ _ _ _
  | .tryBlock span _ _ _ _ _ _ | .withBlock span _ _ _ _ _
  | .funcDef span _ _ _ _ _ _ _ _ _ _ | .classDef span _ _ _ _ _ _ => span

namespace DottedName

def path (name : DottedName) : Text :=
  ['.'].intercalate (name.parts.items.map Token.text)

end DottedName

namespace Stmt

def isCompound : Stmt → Bool
  | line _ => false
  | _ => true

end Stmt

end Verbatim
