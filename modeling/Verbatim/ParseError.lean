import Verbatim.Scanner

/-!
# Why a parse fails

A parse fails with the lexical error at which the tokens run out, or at a token that the
grammar does not allow where it stands. The first error of either kind is the only one.
-/

namespace Verbatim

inductive SyntaxCause where
  | expected (kind : TokenKind)
  | expectedAtom
  | expectedParameter
  | expectedBlock
  | expectedHandler
  | expectedAsyncStatement
  | expectedAsyncFunction
  | expectedDecorated
  | unexpectedIndent
  | unnamedTarget
  | unnamedArgument
  | unpackingInComprehension
  | manyTargetsAnnotated
  | manyTargetsAugmented
  | parameterAfterKeywords
deriving DecidableEq, Repr

structure SyntaxError where
  cause : SyntaxCause
  token : Token
deriving DecidableEq, Repr

namespace SyntaxError

def message (error : SyntaxError) : String :=
  match error.cause with
  | .expected kind => "Expected " ++ kind.display ++ ", found " ++ error.token.describe
  | .expectedAtom => "Illegal literal!"
  | .expectedParameter => "Expected parameter, found " ++ error.token.describe
  | .expectedBlock => "Expected an indented block"
  | .expectedHandler =>
    "Expected 'except' or 'finally' block, found " ++ error.token.describe
  | .expectedAsyncStatement =>
    "Expected 'def', 'for' or 'with' after 'async', found " ++ error.token.describe
  | .expectedAsyncFunction =>
    "Expected 'def' after 'async', found " ++ error.token.describe
  | .expectedDecorated =>
    "Expected 'def' or 'class' after decorator, found " ++ error.token.describe
  | .unexpectedIndent => "Unexpected indent"
  | .unnamedTarget => "Expected a name before ':='"
  | .unnamedArgument => "Expected a parameter name before '='"
  | .unpackingInComprehension => "Dict unpacking cannot be used in dict comprehension"
  | .manyTargetsAnnotated => "Only a single target can be annotated"
  | .manyTargetsAugmented => "Only a single target can be used with augmented assignment"
  | .parameterAfterKeywords => "Arguments cannot follow var-keyword argument"

end SyntaxError

inductive ErrorKind where
  | lexical | syntactic
deriving DecidableEq, Repr

namespace ErrorKind

def label : ErrorKind → String
  | lexical => "lexical error"
  | syntactic => "syntax error"

end ErrorKind

inductive ParseError where
  | lexical (error : LexicalError)
  | syntactic (error : SyntaxError)
deriving DecidableEq, Repr

namespace ParseError

def kind : ParseError → ErrorKind
  | lexical _ => .lexical
  | syntactic _ => .syntactic

def offset : ParseError → Nat
  | lexical error => error.offset
  | syntactic error => error.token.span.start

def message : ParseError → String
  | lexical error => error.message
  | syntactic error => error.message

def token? : ParseError → Option Token
  | lexical _ => none
  | syntactic error => some error.token

end ParseError

end Verbatim
