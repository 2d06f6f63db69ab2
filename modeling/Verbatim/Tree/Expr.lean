import Verbatim.Separated

/-!
# Expressions and parameters

A tree keeps every token, so that it spells its source, and each part of it records the
span that the grammar gave it. Expressions that share a layout share a constructor and
differ by a kind. Some pieces stand only in certain places, such as a slice in a subscript,
an entry in a dictionary or a keyword argument in a call; the grammar puts them there.
-/

namespace Verbatim

inductive LeafKind where
  | name | number | ellipsis | noneConstant | trueConstant | falseConstant
deriving DecidableEq, Repr

inductive DisplayKind where
  | tuple | list | dictionary | set
deriving DecidableEq, Repr

inductive BinaryKind where
  | power
  | mul | matMul | div | modulo | floorDiv
  | plus | minus
  | shiftLeft | shiftRight
  | bitAnd | bitXor | bitOr
  | less | lessEqual | equal | notEqual | greater | greaterEqual | isIn | isSame
  | and | or
  | named
deriving DecidableEq, Repr

inductive CompoundKind where
  | notIn | isNot
deriving DecidableEq, Repr

inductive UnaryKind where
  | plus | minus | bitInvert | not | star | doubleStar
deriving DecidableEq, Repr

inductive SequenceKind where
  | testList | exprList | testListComp | subscriptList | argList | dictMaker | setMaker | typeList
deriving DecidableEq, Repr

mutual

inductive Expr where
  | leaf (kind : LeafKind) (token : Token)
  | strings (span : Span) (first : Token) (more : List Token)
  | display (span : Span) (kind : DisplayKind) (opener : Token) (body : Option Expr)
      (closer : Token)
  /-- An atom with what is applied to it, or after `await`. -/
  | applied (span : Span) (await : Option Token) (atom : Expr) (trailers : List Trailer)
  | binary (span : Span) (kind : BinaryKind) (left : Expr) (op : Token) (right : Expr)
  | compound (span : Span) (kind : CompoundKind) (left : Expr) (first second : Token)
      (right : Expr)
  | unary (span : Span) (kind : UnaryKind) (op : Token) (operand : Expr)
  | lambda (span : Span) (keyword : Token) (params : Option Params) (colon : Token)
      (body : Expr)
  | conditional (span : Span) (body : Expr) (ifToken : Token) (condition : Expr)
      (elseToken : Token) (alternative : Expr)
  | yield (span : Span) (keyword : Token) (value : Option Expr)
  | yieldFrom (span : Span) (keyword fromToken : Token) (value : Expr)
  | comprehension (span : Span) (element : Expr) (clause : Clause)
  | dictEntry (span : Span) (key : Expr) (colon : Token) (value : Expr)
  | argument (span : Span) (name : Expr) (equal : Token) (value : Expr)
  | slice (span : Span) (lower : Option Expr) (colon : Token) (upper : Option Expr)
      (step : Option Step)
  | sequence (span : Span) (kind : SequenceKind) (items : Separated Expr)
      (trailing : Option Token)

inductive Trailer where
  | member (span : Span) (dot name : Token)
  | call (span : Span) (opener : Token) (arguments : Option Expr) (closer : Token)
  | index (span : Span) (opener : Token) (subscripts : Option Expr) (closer : Token)

inductive Step where
  | mk (colon : Token) (value : Option Expr)

/-- A clause of a comprehension with those after it. -/
inductive Clause where
  | loop (span : Span) (async : Option Token) (forToken : Token) (targets : Expr)
      (inToken : Token) (source : Expr) (next : Option Clause)
  | guard (span : Span) (ifToken : Token) (condition : Expr) (next : Option Clause)

inductive TypeHint where
  | mk (span : Span) (colon : Token) (value : Expr)

inductive Declarator where
  | mk (span : Span) (name : Token) (typeHint : Option TypeHint)

inductive Param where
  | single (declarator : Declarator)
  | withDefault (span : Span) (declarator : Declarator) (assign : Token) (value : Expr)
  /-- The mark after which parameters are passed by keyword. -/
  | keywordOnly (span : Span) (star : Token)
  | variadic (span : Span) (star : Token) (declarator : Declarator)
  | keywordVariadic (span : Span) (op : Token) (declarator : Declarator)
  /-- The mark before which parameters are passed by position. -/
  | positionalOnly (slash : Token)

inductive Params where
  | mk (span : Span) (items : Separated Param) (trailing : Option Token)

end

namespace Expr

def name? : Expr → Option Text
  | leaf .name token => some token.text
  | _ => none

end Expr

/-! ## Recorded spans -/

def Expr.span : Expr → Span
  | .leaf _ token => token.span
  | .strings span _ _ | .display span _ _ _ _ | .applied span _ _ _ | .binary span _ _ _ _
  | .compound span _ _ _ _ _ | .unary span _ _ _ | .lambda span _ _ _ _
  | .conditional span _ _ _ _ _ | .yield span _ _ | .yieldFrom span _ _ _
  | .comprehension span _ _ | .dictEntry span _ _ _ | .argument span _ _ _
  | .slice span _ _ _ _ | .sequence span _ _ _ => span

def Trailer.span : Trailer → Span
  | .member span _ _ | .call span _ _ _ | .index span _ _ _ => span

def Clause.span : Clause → Span
  | .loop span _ _ _ _ _ _ | .guard span _ _ _ => span

def TypeHint.span : TypeHint → Span
  | .mk span _ _ => span

def Declarator.span : Declarator → Span
  | .mk span _ _ => span

def Param.span : Param → Span
  | .single declarator => declarator.span
  | .withDefault span _ _ _ | .keywordOnly span _ | .variadic span _ _
  | .keywordVariadic span _ _ => span
  | .positionalOnly slash => slash.span

namespace Params

def span : Params → Span
  | mk span _ _ => span

def items : Params → Separated Param
  | mk _ items _ => items

def trailing : Params → Option Token
  | mk _ _ trailing => trailing

end Params

namespace Param

/-- Whether a parameter takes the keyword arguments that no other takes. -/
def isKeywordVariadic : Param → Bool
  | keywordVariadic _ _ _ => true
  | _ => false

end Param

end Verbatim
