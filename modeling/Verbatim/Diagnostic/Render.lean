import Verbatim.Diagnostic

/-!
# Diagnostics in full

A rendered diagnostic has a title, a row with the place, and the lines of the excerpt with
their numbers, each followed by a row of marks where it has one. A marked part within one
line is underlined; one that goes over several lines is drawn as a bracket in a gutter at
the left, from its first to its last line.
-/

namespace Verbatim

namespace Text

/-- The lines of a text, each with the size of the line feed, or of the carriage return and
line feed, that ends it. A line break at the end begins no further line. -/
def splitLines : Text → List (Text × Nat)
  | [] => []
  | '\n' :: t => ([], 1) :: splitLines t
  | '\r' :: '\n' :: t => ([], 2) :: splitLines t
  | c :: t =>
    match splitLines t with
    | [] => [([c], 0)]
    | (line, breakSize) :: lines => (c :: line, breakSize) :: lines

def columnsWithin : Nat → Text → Nat
  | _, [] => 0
  | n, c :: t => if c.utf8Size ≤ n then columnsWithin (n - c.utf8Size) t + 1 else 0

def isBlankLine (t : Text) : Bool :=
  t.all Scanner.isBlank

end Text

structure NumberedLine where
  number : Nat
  start : Nat
  text : Text
  breakSize : Nat
deriving DecidableEq, Repr

/-- What is drawn under a line: an underline between two columns, or the first or the last row
of a bracket, up to a column. -/
inductive Mark where
  | underline (first past : Nat)
  | opens (column : Nat)
  | closes (column : Nat)
deriving DecidableEq, Repr

namespace Mark

def isBracket : Mark → Bool
  | underline _ _ => false
  | opens _ | closes _ => true

end Mark

namespace NumberedLine

/-- Numbers the lines of a text from `number`, placing the first one at `start`. -/
def ofLines (number start : Nat) : List (Text × Nat) → List NumberedLine
  | [] => []
  | (text, breakSize) :: lines =>
    ⟨number, start, text, breakSize⟩ ::
      ofLines (number + 1) (start + Text.size text + breakSize) lines

def stop (line : NumberedLine) : Nat :=
  line.start + Text.size line.text

/-- The end of the line with its line break, or with the place past the end of the text. -/
def fullStop (line : NumberedLine) : Nat :=
  line.stop + max line.breakSize 1

def columnOf (line : NumberedLine) (offset : Nat) : Nat :=
  Text.columnsWithin (offset - line.start) line.text

def holds (line : NumberedLine) (offset : Nat) : Bool :=
  line.start ≤ offset && offset < line.fullStop

def markFor (line : NumberedLine) (start stop : Nat) : Option Mark :=
  let first := line.columnOf start
  let past := line.columnOf stop
  if line.stop + line.breakSize < start then none
  else if line.start ≤ start ∧ stop ≤ line.fullStop then
    some (.underline first (max past (first + 1)))
  else if line.start ≤ start ∧ start ≤ line.stop + (line.breakSize - 1) ∧ line.stop < stop then
    some (.opens first)
  else if start < line.start ∧ line.start < stop ∧ stop ≤ line.fullStop then
    some (.closes (past - 1 + if line.stop < stop then 1 else 0))
  else none

def withMarks (start stop : Nat) : List NumberedLine → List (NumberedLine × Option Mark)
  | [] => []
  | line :: lines =>
    match line.markFor start stop with
    | none => (line, none) :: withMarks start stop lines
    | some (.opens column) => (line, some (.opens column)) :: withMarks start stop lines
    | some mark => (line, some mark) :: lines.map fun line => (line, none)

end NumberedLine

namespace Diagnostic

/-! ## Rows -/

def padding (n : Nat) (c : Char) : String :=
  String.ofList (List.replicate n c)

def rightAligned (width n : Nat) : String :=
  let digits := toString n
  padding (width - digits.length) ' ' ++ digits

/-- The place in front of a line where a bracket is drawn: none at all if nothing is, and
otherwise blank, the bracket's upper corner, or its side. -/
inductive Gutter where
  | absent | blank | corner | side
deriving DecidableEq, Repr

namespace Gutter

def text : Gutter → String
  | absent => ""
  | blank => "  "
  | corner => "/ "
  | side => "| "

/-- The gutter of a line by its mark, among lines one of which is part of a bracket. A bracket
that opens at the first word of its line has its corner there. -/
def ofMark (line : Text) : Option Mark → Gutter
  | some (.opens column) => if Text.isBlankLine (line.take column) then corner else blank
  | some (.closes _) => side
  | _ => blank

end Gutter

def sourceRow (width : Nat) (gutter : Gutter) (line : NumberedLine) : String :=
  let row := rightAligned width line.number ++ " |"
  if !line.text.isEmpty then row ++ " " ++ gutter.text ++ String.ofList line.text
  else if gutter = .side then row ++ " |"
  else row

/-- The row under a line, which a corner makes needless. -/
def markRows (width : Nat) (kind : String) (gutter : Gutter) : Option Mark → List String
  | none => []
  | some (.underline first past) =>
    [padding (width + 1) ' ' ++ "| " ++ padding first ' ' ++ padding (past - first) '^' ++
      " " ++ kind]
  | some (.opens column) =>
    if gutter = .corner then []
    else [padding (width + 1) ' ' ++ "|  " ++ padding (column + 1) '_' ++ "^"]
  | some (.closes column) =>
    [padding (width + 1) ' ' ++ "| |" ++ padding (column + 1) '_' ++ "^ " ++ kind]

/-- The line and the column of an offset among some lines, or the first place there is. -/
def placeAmong (lines : List NumberedLine) (offset : Nat) : Nat × Nat :=
  match lines.find? fun line => line.holds offset with
  | some line => (line.number, line.columnOf offset + 1)
  | none => (1, 1)

def placeRow (width : Nat) (label : String) (place : Nat × Nat) : String :=
  let label := if label.isEmpty then "" else " " ++ label
  padding width ' ' ++ s!"-->{label}:{place.1}:{place.2}"

def excerptRows (kind label : String) (excerpt : Excerpt) : List String :=
  let lines := NumberedLine.ofLines excerpt.firstLine 0 (Text.splitLines excerpt.lines)
  let width := (lines.getLast?.map fun line => (toString line.number).length).getD 0
  let marked := NumberedLine.withMarks excerpt.start excerpt.stop lines
  let isBracketed := marked.any fun (_, mark) => mark.any Mark.isBracket
  let rows := marked.flatMap fun (line, mark) =>
    let gutter := if isBracketed then Gutter.ofMark line.text mark else .absent
    sourceRow width gutter line :: markRows width kind gutter mark
  let bar := padding (width + 1) ' ' ++ "|"
  placeRow width label (placeAmong lines excerpt.start) :: bar :: (rows ++ [bar])

def render (d : Diagnostic) (source : Text) (label : String) : String :=
  match d.excerpt? source with
  | none => "Parse error for " ++ label ++ ": " ++ d.display
  | some excerpt =>
    "\n".intercalate (("error: " ++ d.title source) :: excerptRows d.kind.label label excerpt)

end Diagnostic

end Verbatim
