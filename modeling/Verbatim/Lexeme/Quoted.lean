import Verbatim.Lexeme.Fault
import Verbatim.Text.Lines

/-!
# String literals

A literal opens with one quote or with three, after at most two letters. It ends where as
many unescaped quotes of the same character stand in a row. A backslash escapes the
character after it, or a whole carriage return and line feed pair; a literal with one
quote does not reach over an unescaped line break.
-/

namespace Verbatim.Lexeme

structure Extent where
  length : Nat
  closed : Bool
deriving DecidableEq, Repr

namespace Extent

def after (n : Nat) (extent : Extent) : Extent :=
  { extent with length := n + extent.length }

@[simp]
theorem after_length (n : Nat) (extent : Extent) :
    (extent.after n).length = n + extent.length := rfl

@[simp]
theorem after_closed (n : Nat) (extent : Extent) :
    (extent.after n).closed = extent.closed := rfl

end Extent

inductive QuoteWidth where
  | single | triple
deriving DecidableEq, Repr

namespace QuoteWidth

def count : QuoteWidth → Nat
  | single => 1
  | triple => 3

def unterminated : QuoteWidth → LexicalCause
  | single => .unterminatedString
  | triple => .unterminatedTripleString

end QuoteWidth

def isQuote (c : Char) : Bool :=
  c == '\x22' || c == '\x27'

/-- What is left of a literal after `run` closing quotes in a row. -/
def stringBody (quote : Char) (width : QuoteWidth) (run : Nat) : Text → Extent
  | [] => ⟨0, false⟩
  | c :: t =>
    if c = quote then
      if run + 1 = width.count then ⟨1, true⟩ else (stringBody quote width (run + 1) t).after 1
    else if c = '\\' then
      match t with
      | [] => ⟨1, false⟩
      | '\r' :: '\n' :: u => (stringBody quote width 0 u).after 3
      | _ :: u => (stringBody quote width 0 u).after 2
    else if width = .single ∧ Text.isLineBreak c then ⟨1, false⟩
    else (stringBody quote width 0 t).after 1

/-- The reading of a literal from its extent. A literal without an end is at fault as a whole. -/
def Extent.reading (width : QuoteWidth) (extent : Extent) : Reading :=
  if extent.closed then .ok extent.length else .error ⟨width.unterminated, 0, extent.length⟩

/-- A literal from its opening quote on, `letters` characters into the lexeme. Two quotes that
no third follows are the empty literal. -/
def string (letters : Nat) : Text → Reading
  | [] => .error ⟨.unterminatedString, 0, letters⟩
  | quote :: t =>
    if t.head? = some quote then
      if (t.drop 1).head? = some quote then
        ((stringBody quote .triple 0 (t.drop 2)).after (letters + 3)).reading .triple
      else .ok (letters + 2)
    else ((stringBody quote .single 0 t).after (letters + 1)).reading .single

/-- The letters that can stand in front of a literal, in either case. -/
def stringLetters : List String :=
  ["r", "u", "b", "f", "br", "rb", "fr", "rf"]

def isStringLetters (t : Text) : Bool :=
  stringLetters.any fun letters => letters.toList == t.map Char.toLower

end Verbatim.Lexeme
