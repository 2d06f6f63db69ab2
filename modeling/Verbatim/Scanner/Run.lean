import Verbatim.Scanner

/-!
# Runs of the scanner

A run takes tokens until `endOfFile` or the first lexical error. What it gives is all
that a parser ever sees of a source.
-/

namespace Verbatim

/-- The tokens of a source, up to `endOfFile` when `failure` is `none` and up to a lexical
error otherwise. -/
structure TokenRun where
  tokens : List Token
  failure : Option LexicalError
deriving DecidableEq, Repr

namespace TokenRun

def cons (token : Token) (run : TokenRun) : TokenRun :=
  { run with tokens := token :: run.tokens }

def complete (run : TokenRun) : Except LexicalError (List Token) :=
  match run.failure with
  | none => .ok run.tokens
  | some error => .error error

end TokenRun

namespace Scanner

def run : Nat → Scanner → TokenRun
  | 0, _ => ⟨[], none⟩
  | n + 1, s =>
    match s.next with
    | (.error error, _) => ⟨[], some error⟩
    | (.ok token, s) =>
      if token.kind = .endOfFile then ⟨[token], none⟩ else (run n s).cons token

end Scanner

/-- The run over a source. A token takes a character, or an open block that took one, so the
steps suffice. -/
def TokenRun.ofText (options : Options) (t : Text) : TokenRun :=
  (Scanner.ofText options t).run (2 * t.length + 2)

def tokenize (options : Options) (t : Text) : Except LexicalError (List Token) :=
  (TokenRun.ofText options t).complete

end Verbatim
