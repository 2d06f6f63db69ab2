import Verbatim.Grammar.Statement

/-!
# Parsing a source

The three things that a source can be: a module, a list of expressions, and the signature
of a function. Each takes the whole source, down to its end.
-/

namespace Verbatim

namespace Grammar

open Verbatim.Parser

def moduleRoot : Parser ModuleTree := do
  let start ← start
  let statements ← many (.startedBy (· != .endOfFile) statement)
  let last ← endOfFile
  return ⟨← spanFrom start, statements, last⟩

def newlines : Parser (List Token) :=
  many (.onKind .newline bump)

def expressionRoot : Parser ExpressionTree := do
  let start ← start
  let body ← aTestList
  let newlines ← newlines
  let last ← endOfFile
  return ⟨← spanFrom start, body, newlines, last⟩

def signatureRoot : Parser SignatureTree := do
  let start ← start
  let opener ← expect .leftParen
  let argumentTypes ← optional (.startedBy (· != .rightParen) (withRules typeList))
  let closer ← expect .rightParen
  let arrow ← expect .arrow
  let result ← aTest
  let newlines ← newlines
  let last ← endOfFile
  return ⟨← spanFrom start, opener, argumentTypes, closer, arrow, result, newlines, last⟩

end Grammar

def parseWith {α : Type} (root : Parser α) (options : Options) (t : Text) : Except ParseError α :=
  match Stream.ofRun (TokenRun.ofText options t) with
  | .error error => .error (.lexical error)
  | .ok stream => (root stream).map Prod.fst

def parseModule (options : Options) (t : Text) : Except ParseError ModuleTree :=
  parseWith Grammar.moduleRoot options t

def parseExpression (options : Options) (t : Text) : Except ParseError ExpressionTree :=
  parseWith Grammar.expressionRoot options t

def parseSignature (options : Options) (t : Text) : Except ParseError SignatureTree :=
  parseWith Grammar.signatureRoot options t

end Verbatim
