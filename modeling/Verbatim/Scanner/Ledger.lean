import Verbatim.Scanner

/-!
# A ledger of blocks

By its form the scanner has the column of the module below all others, and never an `indent` due
together with a `dedent`. The same blocks can be kept in plain variables, each of which is changed
for itself: a stack of columns with that of the module on the ground, whether an `indent` is due,
and how many of `dedent` are. Here the steps are taken with such a ledger, and what a scanner has of
its own blocks is not looked at.
-/

namespace Verbatim

structure Ledger where
  /-- The columns of the open blocks, innermost first, above that of the module. -/
  stack : List Nat
  indentDue : Bool
  dedentsDue : Nat
  markerOffset : Nat
deriving DecidableEq, Repr

namespace Ledger

/-- What a step with a ledger gives, the ledger after it and the scanner to go on with. -/
abbrev Step (α : Type) := Except LexicalError α × Ledger × Scanner

def start : Ledger :=
  ⟨[0], false, 0, 0⟩

def top (l : Ledger) : Nat :=
  l.stack.headD 0

def marker (l : Ledger) (kind : TokenKind) : Token :=
  ⟨kind, Span.empty l.markerOffset, [], []⟩

/-! ## The start of a logical line -/

/-- Takes the columns that are greater than the one of a line off the stack, and counts a `dedent`
for each. -/
def closeDeeper (column : Nat) : List Nat → Nat → List Nat × Nat
  | [], due => ([], due)
  | level :: stack, due =>
    if column < level then closeDeeper column stack (due + 1) else (level :: stack, due)

def measure (l : Ledger) (column offset : Nat) : Except LexicalError Unit × Ledger :=
  if l.top < column then
    (.ok (), { l with stack := column :: l.stack, indentDue := true, markerOffset := offset })
  else if column < l.top then
    let (stack, dedentsDue) := closeDeeper column l.stack l.dedentsDue
    let closed : Ledger := { l with stack, dedentsDue }
    if closed.top = column then (.ok (), { closed with markerOffset := offset })
    else (.error ⟨.inconsistentIndentation, offset⟩, closed)
  else (.ok (), { l with markerOffset := offset })

/-- Closes all blocks, so that only the column on the ground of the stack is left. -/
def close (l : Ledger) (offset : Nat) : Ledger :=
  let levels := l.stack.length - 1
  if levels = 0 then l
  else
    { l with
      stack := l.stack.drop levels, dedentsDue := l.dedentsDue + levels, markerOffset := offset }

def enterLine : Nat → Ledger → Scanner → Step Unit
  | 0, l, s => (.ok (), l, s)
  | n + 1, l, s =>
    let indentation := Scanner.blanks s.rest
    let s := s.keep .whitespace indentation.length
    let s := s.keep .comment (Scanner.commentLength s.rest)
    match Text.lineBreakLength s.rest with
    | 0 =>
      if s.rest.isEmpty then (.ok (), l.close s.offset, s)
      else
        let (outcome, l) := l.measure (Scanner.columnAfter s.tabSize indentation) s.offset
        (outcome, l, s)
    | k + 1 => enterLine n l (s.keep .newline (k + 1))

def enterLineIfDue (l : Ledger) (s : Scanner) : Step Unit :=
  if s.atLineStart then l.enterLine (s.rest.length + 1) { s with atLineStart := false }
  else (.ok (), l, s)

/-! ## Steps -/

def finish (l : Ledger) (s : Scanner) : Step Token :=
  let l := l.close s.offset
  match l.dedentsDue with
  | 0 => ((s.emit .endOfFile 0).1, l, (s.emit .endOfFile 0).2)
  | n + 1 => (.ok (l.marker .dedent), { l with dedentsDue := n }, s)

def scanToken (l : Ledger) (s : Scanner) : Step Token :=
  match s.rest with
  | [] => l.finish s
  | _ :: _ => (s.scanToken.1, l, s.scanToken.2)

def next (l : Ledger) (s : Scanner) : Step Token :=
  match l.enterLineIfDue s with
  | (.error error, l, s) => (.error error, l, s)
  | (.ok (), l, s) =>
    if l.indentDue then (.ok (l.marker .indent), { l with indentDue := false }, s)
    else
      match l.dedentsDue with
      | n + 1 => (.ok (l.marker .dedent), { l with dedentsDue := n }, s)
      | 0 => l.scanToken s.passTrivia

/-- The outcome of each of some steps and the ledger after it. A step that fails is followed by the
next one all the same. -/
def trace : Nat → Ledger → Scanner → List (Except LexicalError Token × Ledger)
  | 0, _, _ => []
  | n + 1, l, s => ((l.next s).1, (l.next s).2.1) :: trace n (l.next s).2.1 (l.next s).2.2

end Ledger

end Verbatim
