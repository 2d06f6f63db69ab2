import Verbatim.ParseError
import Verbatim.Text.Lines
import Verbatim.Word

/-!
# Diagnostics

A diagnostic is what is told about an error: its kind, its message and the part of the
source that it blames. Next to a source it has an excerpt, which holds the line of the
error with one line of context on either side and says what to mark there. The marked
part is never empty; at the very end of a source it is one byte past the end.
-/

namespace Verbatim

structure Diagnostic where
  kind : ErrorKind
  message : String
  offset : Nat
  tokenStop : Option Nat
deriving DecidableEq, Repr

namespace ParseError

def diagnostic (error : ParseError) : Diagnostic where
  kind := error.kind
  message := error.message
  offset := error.offset
  tokenStop := error.token?.map fun token => token.span.stop

end ParseError

/-- Whole lines of a source, and the part of them to mark, by offsets into those lines. -/
structure Excerpt where
  firstLine : Nat
  lines : Text
  start : Nat
  stop : Nat
deriving DecidableEq, Repr

structure LineWindow where
  firstLine : Nat
  start : Nat
  stop : Nat
deriving DecidableEq, Repr

namespace LineIndex

/-- A line with as many lines of context above and below as there are, up to a number. The number
of the line behind the window is a word, like every number of a line. -/
def windowAround (index : LineIndex) (context line : Nat) : LineWindow where
  firstLine := max (line - context) 1
  start := (index.lineStart? (max (line - context) 1)).getD 0
  stop := (index.lineStart? (wrap (line + context + 1))).getD index.size

end LineIndex

namespace LineWindow

/-- The lines of a window, unless its bounds cut through a character or are in the wrong order. -/
def lines? (window : LineWindow) (source : Text) : Option Text :=
  (Span.between window.start window.stop).toOption.bind (Text.slice? source)

end LineWindow

namespace Diagnostic

def contextLines : Nat := 1

def display (d : Diagnostic) : String :=
  d.kind.label ++ " at offset " ++ toString d.offset ++ ": " ++ d.message

/-- The offset of the error, inside the source or at its end. -/
def placeIn (d : Diagnostic) (source : Text) : Nat :=
  min d.offset (Text.size source)

def window (d : Diagnostic) (source : Text) : LineWindow :=
  let index := LineIndex.ofText source
  index.windowAround contextLines (max (index.lineOf (d.placeIn source)) 1)

/-- The end of the marked part, before one byte is added to an empty one. -/
def markStop (d : Diagnostic) (source : Text) : Nat :=
  match d.tokenStop with
  | some stop => max (min stop (d.window source).stop) (d.placeIn source)
  | none => d.placeIn source

def excerpt? (d : Diagnostic) (source : Text) : Option Excerpt :=
  let window := d.window source
  let start := d.placeIn source - window.start
  let stop := d.markStop source - window.start
  (window.lines? source).map fun lines =>
    { firstLine := window.firstLine
      lines
      start
      stop := if start = stop then min (stop + 1) (Text.size lines + 1) else stop }

def title (d : Diagnostic) (source : Text) : String :=
  let position := Text.positionOf source (d.placeIn source)
  s!"{d.message} at {position.line}:{position.column}"

end Diagnostic

namespace ParseError

def display (error : ParseError) : String :=
  error.diagnostic.display

end ParseError

end Verbatim
