import Verbatim.Text
import Verbatim.Token.Kind

/-!
# Tokens and trivia

Each byte of a source belongs to the text of one token or to a piece of trivia in front
of one. A token keeps the trivia that leads up to it, so the full texts of the tokens of
a source, one after the other, spell the source.
-/

namespace Verbatim

/-- Spaces, tabs and form feeds; a comment without its line break; a line break that ends no
logical line; a backslash with the line break that it joins over. -/
inductive TriviaKind where
  | whitespace | comment | newline | lineContinuation
deriving DecidableEq, Repr

namespace TriviaKind

def label : TriviaKind → String
  | .whitespace => "Whitespace"
  | .comment => "Comment"
  | .newline => "Newline"
  | .lineContinuation => "LineContinuation"

end TriviaKind

structure Trivia where
  kind : TriviaKind
  span : Span
  text : Text
deriving DecidableEq, Repr

/-- A comment that begins with this mark, outside brackets and after other tokens of its line,
is a token. -/
def typeCommentMark : String := "# type: "

structure Token where
  kind : TokenKind
  span : Span
  leading : List Trivia
  text : Text
deriving DecidableEq, Repr

namespace Token

def fullText (token : Token) : Text :=
  token.leading.flatMap Trivia.text ++ token.text

def textIf (token : Token) (kind : TokenKind) : Option Text :=
  if token.kind = kind then some token.text else none

def name? (token : Token) : Option Text :=
  token.textIf .name

/-- The literal as written, with base mark, separators and suffix. -/
def number? (token : Token) : Option Text :=
  token.textIf .number

/-- The literal as written, with its letters and quotes. -/
def string? (token : Token) : Option Text :=
  token.textIf .string

def typeComment? (token : Token) : Option Text :=
  (token.textIf .typeComment).bind fun text =>
    if typeCommentMark.toList.isPrefixOf text then some (text.drop typeCommentMark.length)
    else none

/-- How a message names a token: structural markers by their kind, others by their text. -/
def describe (token : Token) : String :=
  if token.kind.isStructural then token.kind.display
  else "'" ++ String.ofList token.text ++ "'"

end Token

def Text.ofTokens (tokens : List Token) : Text :=
  tokens.flatMap Token.fullText

end Verbatim
