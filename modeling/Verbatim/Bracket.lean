import Verbatim.Token.Kind

/-!
# The three shapes of brackets
-/

namespace Verbatim

inductive Bracket where
  | paren | square | brace
deriving DecidableEq, Repr

namespace Bracket

def openKind : Bracket → TokenKind
  | .paren => .leftParen
  | .square => .leftBracket
  | .brace => .leftBrace

def closeKind : Bracket → TokenKind
  | .paren => .rightParen
  | .square => .rightBracket
  | .brace => .rightBrace

def all : List Bracket := [.paren, .square, .brace]

def maxDepth : Nat := 200

end Bracket

namespace TokenKind

def opens? (kind : TokenKind) : Option Bracket :=
  Bracket.all.find? fun bracket => bracket.openKind = kind

def closes? (kind : TokenKind) : Option Bracket :=
  Bracket.all.find? fun bracket => bracket.closeKind = kind

theorem opens?_eq_some_iff {kind : TokenKind} {bracket : Bracket} :
    kind.opens? = some bracket ↔ kind = bracket.openKind := by
  cases kind <;> cases bracket <;> decide

theorem closes?_eq_some_iff {kind : TokenKind} {bracket : Bracket} :
    kind.closes? = some bracket ↔ kind = bracket.closeKind := by
  cases kind <;> cases bracket <;> decide

end TokenKind

end Verbatim
