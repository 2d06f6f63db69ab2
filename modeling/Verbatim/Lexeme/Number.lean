import Verbatim.Lexeme.Fault
import Verbatim.Unicode.Alphabetic
import Verbatim.Unicode.Numeric

/-!
# Number literals

A number is an integer in a named base, or a decimal literal: digits with an optional
fraction, exponent and imaginary mark. An underscore may stand between two digits. A
decimal integer other than zero does not begin with a zero.
-/

namespace Verbatim.Lexeme

def isIdentifierStart (c : Char) : Bool :=
  c == '_' || Unicode.isAlphabetic c

def isIdentifierContinue (c : Char) : Bool :=
  c == '_' || Unicode.isAlphabetic c || Unicode.isNumeric c

def startsWithDigit (t : Text) : Bool :=
  t.head?.any Char.isDigit

/-- The digits of a decimal number, with single underscores between them. -/
def digitPart : Text → Reading
  | [] => .ok 0
  | c :: t =>
    if c.isDigit then (digitPart t).after 1
    else if c = '_' then
      if startsWithDigit t then (digitPart t).after 1 else .error ⟨.invalidDecimal, 0, 1⟩
    else .ok 0

def radixEnd (radix : Radix) (anyDigit : Bool) (t : Text) : Reading :=
  match t with
  | c :: _ =>
    if c.isDigit then .error ⟨.invalidDigit c radix, 0, 0⟩
    else if isIdentifierContinue c || !anyDigit then .error ⟨.invalidRadix radix, 0, 0⟩
    else .ok 0
  | [] => if anyDigit then .ok 0 else .error ⟨.invalidRadix radix, 0, 0⟩

/-- The digits of a literal with a named base, each with an optional underscore before it. -/
def radixDigits (radix : Radix) (anyDigit : Bool) : Text → Reading
  | [] => radixEnd radix anyDigit []
  | c :: t =>
    if radix.isDigit c then (radixDigits radix true t).after 1
    else if c = '_' then
      match t with
      | d :: _ =>
        if radix.isDigit d then (radixDigits radix anyDigit t).after 1
        else if d.isDigit then .error ⟨.invalidDigit d radix, 1, 1⟩
        else .error ⟨.invalidRadix radix, 0, 1⟩
      | [] => .error ⟨.invalidRadix radix, 0, 1⟩
    else radixEnd radix anyDigit (c :: t)

def radixOf? : Text → Option Radix
  | '0' :: mark :: _ => Radix.ofMark? mark
  | _ => none

/-- A fraction, point included; its digits may be missing. -/
def fraction : Text → Reading
  | '.' :: t => if startsWithDigit t then (digitPart t).after 1 else .ok 1
  | _ => .ok 0

/-- An exponent. The letter alone belongs to the next token, but with a sign it needs
digits. -/
def exponent : Text → Reading
  | mark :: t =>
    if mark = 'e' ∨ mark = 'E' then
      match t with
      | sign :: u =>
        if sign = '+' ∨ sign = '-' then
          if startsWithDigit u then (digitPart u).after 2
          else .error ⟨.exponentWithoutDigits, 0, 0⟩
        else if sign.isDigit then (digitPart t).after 1
        else .ok 0
      | [] => .ok 0
    else .ok 0
  | [] => .ok 0

def imaginary : Text → Reading
  | c :: _ => if c = 'j' ∨ c = 'J' then .ok 1 else .ok 0
  | [] => .ok 0

def hasLeadingZeros (digits : Text) : Bool :=
  digits.head? == some '0' && digits.any fun c => '1' ≤ c && c ≤ '9'

def decimalTail (t : Text) : Reading :=
  (fraction t).andThen t fun u => (exponent u).andThen u imaginary

/-- A decimal literal. Digits with nothing after them are an integer, which has no leading
zeros. -/
def decimal (t : Text) : Reading :=
  match digitPart t with
  | .error fault => .error fault
  | .ok digits =>
    match decimalTail (t.drop digits) with
    | .ok 0 =>
      if hasLeadingZeros (t.take digits) then .error ⟨.leadingZeros, 0, digits⟩ else .ok digits
    | rest => rest.after digits

def number (t : Text) : Reading :=
  match radixOf? t with
  | some radix => (radixDigits radix false (t.drop 2)).after 2
  | none => decimal t

end Verbatim.Lexeme
