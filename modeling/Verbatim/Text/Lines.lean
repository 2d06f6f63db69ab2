import Verbatim.Search
import Verbatim.Text

/-!
# Lines and positions

A line feed, a carriage return and the pair of both each end a line. Lines and
columns count from one and columns count characters, while offsets count bytes from
zero. The index holds the offset at which each line starts; a line break at the very
end of the text puts a last start at the end of the text, which `LineIndex.count`
does not count as a line.
-/

namespace Verbatim

namespace Text

def isLineBreak (c : Char) : Bool :=
  c == '\r' || c == '\n'

/-- The number of characters of the line break at the head of a text, zero if there is none. -/
def lineBreakLength : Text → Nat
  | '\r' :: '\n' :: _ => 2
  | '\r' :: _ => 1
  | '\n' :: _ => 1
  | _ => 0

def firstLine (t : Text) : Text :=
  t.takeWhile fun c => !isLineBreak c

def lineStartsAfter : Nat → Text → List Nat
  | _, [] => []
  | offset, '\r' :: '\n' :: t => (offset + 2) :: lineStartsAfter (offset + 2) t
  | offset, c :: t =>
    if isLineBreak c then (offset + 1) :: lineStartsAfter (offset + 1) t
    else lineStartsAfter (offset + c.utf8Size) t

end Text

structure LineIndex where
  starts : List Nat
  size : Nat
deriving DecidableEq, Repr

structure Position where
  line : Nat
  column : Nat
deriving DecidableEq, Repr

namespace LineIndex

def ofText (t : Text) : LineIndex where
  starts := 0 :: Text.lineStartsAfter 0 t
  size := Text.size t

def count (index : LineIndex) : Nat :=
  if index.size = 0 then 0
  else if index.starts.getLast? = some index.size then index.starts.length - 1
  else index.starts.length

/-- The line of an offset, by a search among the starts. An offset at which no line starts is on the
line in front of the place where it would have to be put in. -/
def lineOf (index : LineIndex) (offset : Nat) : Nat :=
  match binarySearch index.starts (min offset index.size) with
  | .ok place => place + 1
  | .error place => place

def lineStart? (index : LineIndex) (line : Nat) : Option Nat :=
  if line = 0 then none else index.starts[line - 1]?

end LineIndex

namespace Text

def lineCount (t : Text) : Nat :=
  (LineIndex.ofText t).count

/-- The position of a byte offset. An offset past the end has the position of the end, and
an offset inside a character has column one. -/
def positionOf (t : Text) (offset : Nat) : Position :=
  let index := LineIndex.ofText t
  let line := index.lineOf offset
  let start := (index.lineStart? line).getD 0
  let before := (dropBytes? start t).bind (takeBytes? (min offset (size t) - start))
  { line, column := (before.map List.length).getD 0 + 1 }

def lineSpan? (t : Text) (line : Nat) : Option Span :=
  ((LineIndex.ofText t).lineStart? line).bind fun start =>
    if start = size t ∧ 1 < line then none
    else some (Span.sized start (size (firstLine ((dropBytes? start t).getD []))))

/-- The byte offset of a position. A line or column of zero counts as one, a column past
the end of its line is the end of that line, and a line past the last is the end of the
text. -/
def offsetOf (t : Text) (p : Position) : Nat :=
  match lineSpan? t (max p.line 1) with
  | none => size t
  | some line =>
    let content := (slice? t line).getD []
    line.start + size (content.take (max p.column 1 - 1))

def lineRange (t : Text) (a : Span) : Nat × Nat :=
  let index := LineIndex.ofText t
  (index.lineOf a.start, index.lineOf (max (a.stop - 1) a.start))

end Text

end Verbatim
