import Verbatim.Lexeme.Number
import Verbatim.Lexeme.Quoted

/-!
# Lexemes

One lexeme is read at a time, from the text that begins with it: a number, a string
literal, a word, or else an operator or delimiter, which takes as much as it can.
The reader knows nothing of lines, indentation or open brackets.
-/

namespace Verbatim.Lexeme

/-- What has been taken is one of two operators: the longer one takes the equals sign that may
come next. -/
def withEqual (longer shorter : TokenKind) (taken : Nat) : Text → Option (TokenKind × Nat)
  | '=' :: _ => some (longer, taken + 1)
  | _ => some (shorter, taken)

/-- The operator or delimiter that a text begins with, and its length. -/
def operator? : Text → Option (TokenKind × Nat)
  | '(' :: _ => some (.leftParen, 1)
  | '[' :: _ => some (.leftBracket, 1)
  | '\x7b' :: _ => some (.leftBrace, 1)
  | ')' :: _ => some (.rightParen, 1)
  | ']' :: _ => some (.rightBracket, 1)
  | '\x7d' :: _ => some (.rightBrace, 1)
  | ',' :: _ => some (.comma, 1)
  | ';' :: _ => some (.semicolon, 1)
  | '~' :: _ => some (.tilde, 1)
  | '.' :: t =>
    match t with
    | '.' :: '.' :: _ => some (.ellipsis, 3)
    | _ => some (.dot, 1)
  | ':' :: t => withEqual .colonEqual .colon 1 t
  | '+' :: t => withEqual .plusEqual .plus 1 t
  | '-' :: t =>
    match t with
    | '>' :: _ => some (.arrow, 2)
    | _ => withEqual .minusEqual .minus 1 t
  | '*' :: t =>
    match t with
    | '*' :: t => withEqual .doubleStarEqual .doubleStar 2 t
    | _ => withEqual .starEqual .star 1 t
  | '/' :: t =>
    match t with
    | '/' :: t => withEqual .doubleSlashEqual .doubleSlash 2 t
    | _ => withEqual .slashEqual .slash 1 t
  | '%' :: t => withEqual .percentEqual .percent 1 t
  | '@' :: t => withEqual .atEqual .atSign 1 t
  | '&' :: t => withEqual .ampersandEqual .ampersand 1 t
  | '|' :: t => withEqual .pipeEqual .pipe 1 t
  | '^' :: t => withEqual .caretEqual .caret 1 t
  | '=' :: t => withEqual .equalEqual .equal 1 t
  | '!' :: '=' :: _ => some (.notEqual, 2)
  | '<' :: t =>
    match t with
    | '=' :: _ => some (.lessEqual, 2)
    | '<' :: t => withEqual .leftShiftEqual .leftShift 2 t
    | '>' :: _ => some (.lessGreater, 2)
    | _ => some (.less, 1)
  | '>' :: t =>
    match t with
    | '=' :: _ => some (.greaterEqual, 2)
    | '>' :: t => withEqual .rightShiftEqual .rightShift 2 t
    | _ => some (.greater, 1)
  | _ => none

def wordLength (t : Text) : Nat :=
  (t.takeWhile isIdentifierContinue).length

def wordKind (word : Text) : TokenKind :=
  (TokenKind.keyword? word).getD .name

def kinded (kind : TokenKind) (reading : Reading) : Except Fault (TokenKind × Nat) :=
  reading.map (kind, ·)

/-- An identifier or keyword, or the string literal whose letters it is. -/
def word (t : Text) : Except Fault (TokenKind × Nat) :=
  let length := wordLength t
  let letters := t.take length
  let rest := t.drop length
  if rest.head?.any isQuote && isStringLetters letters then kinded .string (string length rest)
  else .ok (wordKind letters, length)

def read (t : Text) : Except Fault (TokenKind × Nat) :=
  match t with
  | [] => .ok (.endOfFile, 0)
  | c :: rest =>
    if c.isDigit || (c == '.' && startsWithDigit rest) then kinded .number (number t)
    else if isQuote c then kinded .string (string 0 t)
    else if isIdentifierStart c then word t
    else
      match operator? t with
      | some operator => .ok operator
      | none => .error ⟨.invalidCharacter c, 0, 1⟩

end Verbatim.Lexeme
