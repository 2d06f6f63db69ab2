import Verbatim.Bracket
import Verbatim.Text
import Verbatim.Unicode.Printable

/-!
# What can be wrong with a lexeme

A reader of one lexeme answers with the number of characters it takes, or with a fault.
A fault says why, at which character of the lexeme, and how many characters the reader
had gone through when it gave up; the scanner goes on after those.
-/

namespace Verbatim

inductive Radix where
  | binary | octal | hexadecimal
deriving DecidableEq, Repr

namespace Radix

def label : Radix → String
  | .binary => "binary"
  | .octal => "octal"
  | .hexadecimal => "hexadecimal"

def isDigit : Radix → Char → Bool
  | .binary, c => c == '0' || c == '1'
  | .octal, c => '0' ≤ c && c ≤ '7'
  | .hexadecimal, c => c.isDigit || ('a' ≤ c && c ≤ 'f') || ('A' ≤ c && c ≤ 'F')

def ofMark? : Char → Option Radix
  | 'b' | 'B' => some .binary
  | 'o' | 'O' => some .octal
  | 'x' | 'X' => some .hexadecimal
  | _ => none

end Radix

inductive LexicalCause where
  | inconsistentIndentation
  | endAfterContinuation
  | textAfterContinuation
  | invalidDecimal
  | exponentWithoutDigits
  | leadingZeros
  | invalidRadix (radix : Radix)
  | invalidDigit (digit : Char) (radix : Radix)
  | unterminatedString
  | unterminatedTripleString
  | nestedTooDeep
  | unmatchedCloser (closer : Bracket)
  | mismatchedCloser (closer opener : Bracket)
  | invalidCharacter (c : Char)
deriving DecidableEq, Repr

/-- A character as a message quotes it: one that would not show as itself is given by its
code point. -/
def quoteChar (c : Char) : String :=
  if c.toNat = 0 then "\\0"
  else if Unicode.isGraphemeExtend c || !Unicode.isPrintable c then
    "\\u\x7b" ++ String.ofList (Nat.toDigits 16 c.toNat) ++ "\x7d"
  else c.toString

namespace LexicalCause

def bracketText (kind : TokenKind) : String :=
  kind.fixedText?.getD ""

def message : LexicalCause → String
  | inconsistentIndentation => "Inconsistent indentation level"
  | endAfterContinuation => "Unexpected end of file after line continuation character"
  | textAfterContinuation => "Unexpected character after line continuation character"
  | invalidDecimal => "Invalid decimal literal"
  | exponentWithoutDigits => "Invalid decimal literal: exponent has no digits"
  | leadingZeros => "Leading zeros in decimal integer literals are not permitted"
  | invalidRadix radix => "Invalid " ++ radix.label ++ " literal"
  | invalidDigit digit radix =>
    "Invalid digit '" ++ digit.toString ++ "' in " ++ radix.label ++ " literal"
  | unterminatedString => "Unterminated string literal"
  | unterminatedTripleString => "Unterminated triple-quoted string literal"
  | nestedTooDeep => "Too many nested parentheses"
  | unmatchedCloser closer => "Unmatched '" ++ bracketText closer.closeKind ++ "'"
  | mismatchedCloser closer opener =>
    "Closing bracket '" ++ bracketText closer.closeKind ++
      "' does not match opening bracket '" ++ bracketText opener.openKind ++ "'"
  | invalidCharacter c => "Invalid character '" ++ quoteChar c ++ "'"

end LexicalCause

structure Fault where
  cause : LexicalCause
  position : Nat
  taken : Nat
deriving DecidableEq, Repr

/-- The number of characters that a lexeme takes, or what is wrong with it. -/
abbrev Reading := Except Fault Nat

namespace Reading

/-- A reading of the characters that follow `n` others of the same lexeme. -/
def after (n : Nat) : Reading → Reading
  | .ok length => .ok (n + length)
  | .error fault =>
    .error { fault with position := n + fault.position, taken := n + fault.taken }

@[simp]
theorem after_ok (n length : Nat) : after n (.ok length) = .ok (n + length) := rfl

/-- One reading and then another of what the first leaves. -/
def andThen (first : Reading) (text : Text) (second : Text → Reading) : Reading :=
  match first with
  | .ok length => after length (second (text.drop length))
  | .error fault => .error fault

end Reading

end Verbatim
