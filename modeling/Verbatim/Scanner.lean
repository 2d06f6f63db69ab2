import Verbatim.Lexeme
import Verbatim.Options
import Verbatim.Token
import Verbatim.Word

/-!
# The scanner

The scanner turns a source into tokens, one at a time. Lexemes and the trivia between
them come from the text alone; the scanner adds what depends on the text before it: the
open brackets, inside which line breaks are trivia, and the columns of the open blocks,
from which it schedules the `indent` and `dedent` markers of each logical line.

A step that fails still moves the scanner. The malformed lexeme is passed over as far as
it was read, what it did to the open brackets and blocks stays done, and the trivia
collected in front of it waits for the next token.
-/

namespace Verbatim

structure LexicalError where
  cause : LexicalCause
  offset : Nat
deriving DecidableEq, Repr

namespace LexicalError

def message (error : LexicalError) : String :=
  error.cause.message

end LexicalError

inductive Scheduled where
  | indent
  | dedents (count : Nat)
deriving DecidableEq, Repr

structure Scanner where
  tabSize : Nat
  rest : Text
  offset : Nat
  /-- The columns of the open blocks, innermost first; the module's column zero is left out. -/
  columns : List Nat
  /-- The open brackets with their offsets, innermost first. -/
  brackets : List (Bracket × Nat)
  scheduled : Scheduled
  markerOffset : Nat
  atLineStart : Bool
  waiting : List Trivia
deriving DecidableEq, Repr

namespace Scanner

/-- A step of the scanner has an outcome and always leaves a scanner to go on with. -/
abbrev Step (α : Type) := Except LexicalError α × Scanner

def ofText (options : Options) (t : Text) : Scanner where
  tabSize := options.effectiveTabSize
  rest := t
  offset := 0
  columns := []
  brackets := []
  scheduled := .dedents 0
  markerOffset := 0
  atLineStart := true
  waiting := []

def bracketDepth (s : Scanner) : Nat :=
  s.brackets.length

def blockDepth (s : Scanner) : Nat :=
  s.columns.length

def column (s : Scanner) : Nat :=
  s.columns.headD 0

/-! ## Moving over text -/

def advance (s : Scanner) (n : Nat) : Scanner :=
  { s with rest := s.rest.drop n, offset := s.offset + Text.size (s.rest.take n) }

def spanOfNext (s : Scanner) (n : Nat) : Span :=
  Span.sized s.offset (Text.size (s.rest.take n))

def keep (s : Scanner) (kind : TriviaKind) (n : Nat) : Scanner :=
  if n = 0 then s
  else { s.advance n with waiting := s.waiting ++ [⟨kind, s.spanOfNext n, s.rest.take n⟩] }

/-- Makes the next `n` characters a token, which takes the waiting trivia. -/
def emit (s : Scanner) (kind : TokenKind) (n : Nat) : Step Token :=
  (.ok ⟨kind, s.spanOfNext n, s.waiting, s.rest.take n⟩, { s.advance n with waiting := [] })

def fail {α : Type} (s : Scanner) (fault : Fault) : Step α :=
  (.error ⟨fault.cause, s.offset + Text.size (s.rest.take fault.position)⟩, s.advance fault.taken)

def marker (s : Scanner) (kind : TokenKind) : Token :=
  ⟨kind, Span.empty s.markerOffset, [], []⟩

/-! ## The start of a logical line -/

def isBlank (c : Char) : Bool :=
  c == ' ' || c == '\t' || c == '\x0c'

def blanks (t : Text) : Text :=
  t.takeWhile isBlank

def commentLength (t : Text) : Nat :=
  if t.head? = some '#' then (Text.firstLine t).length else 0

/-- The column after one more blank: a tab goes on to the next tab stop, a form feed back to
column zero. -/
def nextColumn (tabSize column : Nat) (c : Char) : Nat :=
  if c = '\t' then wrap ((column / tabSize + 1) * tabSize)
  else if c = '\x0c' then 0
  else wrap (column + 1)

def columnAfter (tabSize : Nat) (t : Text) : Nat :=
  t.foldl (nextColumn tabSize) 0

/-- Opens or closes blocks so that the innermost one has the column of the line. -/
def measure (s : Scanner) (column : Nat) : Step Unit :=
  if s.column < column then
    (.ok (), { s with
      columns := column :: s.columns, scheduled := .indent, markerOffset := s.offset })
  else
    let columns := s.columns.dropWhile (column < ·)
    let closed : Scanner :=
      { s with columns, scheduled := .dedents (s.columns.length - columns.length) }
    if columns.headD 0 = column then (.ok (), { closed with markerOffset := s.offset })
    else (.error ⟨.inconsistentIndentation, s.offset⟩, closed)

def closeBlocks (s : Scanner) : Scanner :=
  if s.columns = [] then s
  else { s with columns := [], scheduled := .dedents s.columns.length, markerOffset := s.offset }

/-- Passes over blank lines and comment lines, then measures the line that follows. Each turn
of the loop takes a line break. -/
def enterLine : Nat → Scanner → Step Unit
  | 0, s => (.ok (), s)
  | n + 1, s =>
    let indentation := blanks s.rest
    let s := s.keep .whitespace indentation.length
    let s := s.keep .comment (commentLength s.rest)
    match Text.lineBreakLength s.rest with
    | 0 =>
      if s.rest.isEmpty then (.ok (), s.closeBlocks)
      else s.measure (columnAfter s.tabSize indentation)
    | k + 1 => enterLine n (s.keep .newline (k + 1))

/-! ## Lexemes -/

def openBracket (s : Scanner) (bracket : Bracket) : Scanner :=
  { s with brackets := (bracket, s.offset) :: s.brackets }

def closeBracket (s : Scanner) : Scanner :=
  { s with brackets := s.brackets.tail }

/-- Makes a lexeme a token and keeps account of the brackets. -/
def lexeme (s : Scanner) (kind : TokenKind) (length : Nat) : Step Token :=
  match kind.opens?, kind.closes? with
  | some bracket, _ =>
    if s.bracketDepth < Bracket.maxDepth then (s.openBracket bracket).emit kind length
    else s.fail ⟨.nestedTooDeep, 0, length⟩
  | none, some bracket =>
    match s.brackets with
    | [] => s.fail ⟨.unmatchedCloser bracket, 0, length⟩
    | (opener, _) :: _ =>
      if opener = bracket then s.closeBracket.emit kind length
      else s.closeBracket.fail ⟨.mismatchedCloser bracket opener, 0, length⟩
  | none, none => s.emit kind length

/-- The end of the text: one `dedent` for each block still open, then `endOfFile`. -/
def finish (s : Scanner) : Step Token :=
  match s.columns with
  | [] => s.emit .endOfFile 0
  | _ :: outer =>
    let closed := s.closeBlocks
    (.ok (closed.marker .dedent), { closed with scheduled := .dedents outer.length })

def isAtTypeComment (s : Scanner) : Bool :=
  s.brackets.isEmpty && typeCommentMark.toList.isPrefixOf s.rest

/-- The kind and length of the trivia at the head of the text, inside a logical line. -/
def triviaAhead? (s : Scanner) : Option (TriviaKind × Nat) :=
  match s.rest with
  | [] => none
  | c :: t =>
    if isBlank c then some (.whitespace, (blanks s.rest).length)
    else if c = '#' then
      if s.isAtTypeComment then none else some (.comment, (Text.firstLine s.rest).length)
    else if c = '\\' then
      match Text.lineBreakLength t with
      | 0 => none
      | k + 1 => some (.lineContinuation, k + 2)
    else if Text.isLineBreak c && !s.brackets.isEmpty then
      some (.newline, Text.lineBreakLength s.rest)
    else none

def passTriviaUpTo : Nat → Scanner → Scanner
  | 0, s => s
  | n + 1, s =>
    match s.triviaAhead? with
    | some (kind, length) => passTriviaUpTo n (s.keep kind length)
    | none => s

/-- Passes over all trivia up to the next lexeme or the end of the logical line. Each piece
takes a character. -/
def passTrivia (s : Scanner) : Scanner :=
  passTriviaUpTo s.rest.length s

def scanToken (s : Scanner) : Step Token :=
  match s.rest with
  | [] => s.finish
  | c :: t =>
    if c = '#' then s.emit .typeComment (Text.firstLine s.rest).length
    else if c = '\\' then
      s.fail ⟨if t.isEmpty then .endAfterContinuation else .textAfterContinuation, 0, 1⟩
    else if Text.isLineBreak c then
      { s with atLineStart := true }.emit .newline (Text.lineBreakLength s.rest)
    else
      match Lexeme.read s.rest with
      | .ok (kind, length) => s.lexeme kind length
      | .error fault => s.fail fault

/-! ## Steps -/

def enterLineIfDue (s : Scanner) : Step Unit :=
  if s.atLineStart then enterLine (s.rest.length + 1) { s with atLineStart := false }
  else (.ok (), s)

/-- The next token. At the end of the text every step gives one more `endOfFile`. -/
def next (s : Scanner) : Step Token :=
  match s.enterLineIfDue with
  | (.error error, s) => (.error error, s)
  | (.ok (), s) =>
    match s.scheduled with
    | .indent => (.ok (s.marker .indent), { s with scheduled := .dedents 0 })
    | .dedents (n + 1) => (.ok (s.marker .dedent), { s with scheduled := .dedents n })
    | .dedents 0 => s.passTrivia.scanToken

end Scanner

end Verbatim
