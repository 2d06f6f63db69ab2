import Verbatim.Tree.Expr

/-!
# Operators by level

The levels of binary operators that fold to the left, loosest first, and the comparison
operators. Which node an operator makes is decided here and nowhere else.
-/

namespace Verbatim

inductive FoldLevel where
  | or | and | bitOr | bitXor | bitAnd | shift | arith | term
deriving DecidableEq, Repr

namespace FoldLevel

def operator? : FoldLevel → TokenKind → Option BinaryKind
  | or, .kwOr => some .or
  | and, .kwAnd => some .and
  | bitOr, .pipe => some .bitOr
  | bitXor, .caret => some .bitXor
  | bitAnd, .ampersand => some .bitAnd
  | shift, .leftShift => some .shiftLeft
  | shift, .rightShift => some .shiftRight
  | arith, .plus => some .plus
  | arith, .minus => some .minus
  | term, .star => some .mul
  | term, .atSign => some .matMul
  | term, .slash => some .div
  | term, .percent => some .modulo
  | term, .doubleSlash => some .floorDiv
  | _, _ => none

def arithmetic : List FoldLevel :=
  [bitOr, bitXor, bitAnd, shift, arith, term]

end FoldLevel

namespace BinaryKind

/-- The comparisons spelled with one token; either spelling of inequality makes the same node. -/
def comparison? : TokenKind → Option BinaryKind
  | .less => some .less
  | .lessEqual => some .lessEqual
  | .equalEqual => some .equal
  | .notEqual | .lessGreater => some .notEqual
  | .greater => some .greater
  | .greaterEqual => some .greaterEqual
  | .kwIn => some .isIn
  | _ => none

end BinaryKind

namespace UnaryKind

def sign? : TokenKind → Option UnaryKind
  | .plus => some .plus
  | .minus => some .minus
  | .tilde => some .bitInvert
  | _ => none

end UnaryKind

namespace LeafKind

def ofToken? : TokenKind → Option LeafKind
  | .name => some .name
  | .number => some .number
  | .ellipsis => some .ellipsis
  | .kwNone => some .noneConstant
  | .kwTrue => some .trueConstant
  | .kwFalse => some .falseConstant
  | _ => none

end LeafKind

/-- A binary operator with its right operand, waiting for the left one. Its span is already
that of the whole. -/
inductive Operation where
  | binary (span : Span) (kind : BinaryKind) (op : Token) (right : Expr)
  | compound (span : Span) (kind : CompoundKind) (first second : Token) (right : Expr)

namespace Operation

def applyTo (left : Expr) : Operation → Expr
  | binary span kind op right => .binary span kind left op right
  | compound span kind first second right => .compound span kind left first second right

end Operation

end Verbatim
