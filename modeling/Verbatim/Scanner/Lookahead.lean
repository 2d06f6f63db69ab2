import Verbatim.Scanner

/-!
# One token of lookahead

The scanner with the token that comes next already taken. A step that fails leaves that
token where it is.
-/

namespace Verbatim

structure Lookahead where
  scanner : Scanner
  current : Token
deriving DecidableEq, Repr

namespace Lookahead

def ofText (options : Options) (t : Text) : Except LexicalError Lookahead :=
  match (Scanner.ofText options t).next with
  | (.ok token, scanner) => .ok ⟨scanner, token⟩
  | (.error error, _) => .error error

/-- Gives the current token and takes the one after it. -/
def advance (look : Lookahead) : Except LexicalError Token × Lookahead :=
  match look.scanner.next with
  | (.ok token, scanner) => (.ok look.current, ⟨scanner, token⟩)
  | (.error error, scanner) => (.error error, { look with scanner })

/-- The lookahead and the outcome after each of `n` steps. -/
def trace : Nat → Lookahead → List (Except LexicalError Token × Lookahead)
  | 0, _ => []
  | n + 1, look => look.advance :: trace n look.advance.2

end Lookahead

end Verbatim
