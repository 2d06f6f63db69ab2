import Verbatim.ParseError
import Verbatim.Scanner.Run
import Verbatim.Separated

/-!
# Reading a stream of tokens

The grammar reads a run of the scanner with one token of lookahead: it decides by the kind
of the current token and moves on to the next one. Where the run ends in a lexical error,
moving on from its last token fails with that error. Every move shortens the stream,
which bounds the loops and the recursion of the grammar. The stream also knows where the
last token taken ends, for the spans of what is built from the tokens.
-/

namespace Verbatim

structure Stream where
  current : Token
  upcoming : List Token
  failure : Option LexicalError
  lastEnd : Nat

namespace Stream

/-- The stream of a run, unless the run has no token at all. -/
def ofRun (run : TokenRun) : Except LexicalError Stream :=
  match run.tokens, run.failure with
  | token :: tokens, failure => .ok ⟨token, tokens, failure, 0⟩
  | [], some error => .error error
  | [], none => .ok ⟨⟨.endOfFile, Span.empty 0, [], []⟩, [], none, 0⟩

def tokens (s : Stream) : List Token :=
  s.current :: s.upcoming

end Stream

abbrev Parser := StateT Stream (Except ParseError)

namespace Parser

/-! ## Single tokens -/

def peek : Parser TokenKind := do
  return (← get).current.kind

def isAt (kind : TokenKind) : Parser Bool := do
  return (← peek) == kind

def fail {α : Type} (cause : SyntaxCause) : Parser α := do
  throw (.syntactic ⟨cause, (← get).current⟩)

/-- Takes the current token, which is not the last. -/
def bump : Parser Token := fun s =>
  match s.upcoming, s.failure with
  | token :: tokens, _ =>
    .ok (s.current,
      { s with current := token, upcoming := tokens, lastEnd := s.current.span.stop })
  | [], some error => .error (.lexical error)
  | [], none => .error (.syntactic ⟨.expectedAtom, s.current⟩)

def expect (kind : TokenKind) : Parser Token := do
  if ← isAt kind then bump else fail (.expected kind)

def eat (kind : TokenKind) : Parser (Option Token) := do
  if ← isAt kind then return some (← bump) else return none

/-- Takes the last token, after which every further token is the same. -/
def endOfFile : Parser Token := fun s =>
  if s.current.kind = .endOfFile then
    .ok (s.current, { s with lastEnd := s.current.span.stop })
  else fail (.expected .endOfFile) s

/-! ## Spans -/

def start : Parser Nat := do
  return (← get).current.span.start

def spanFrom (start : Nat) : Parser Span := do
  return Span.upTo start (← get).lastEnd

/-! ## Optional parts and repetition -/

/-- What to parse next, by the kind of the current token, if anything begins there. -/
abbrev Choice (α : Type) := TokenKind → Option (Parser α)

/-- The one choice of a part that any of some kinds begins. -/
def Choice.startedBy {α : Type} (begins : TokenKind → Bool) (part : Parser α) : Choice α :=
  fun kind => if begins kind then some part else none

def Choice.onKind {α : Type} (kind : TokenKind) (part : Parser α) : Choice α :=
  startedBy (· == kind) part

def optional {α : Type} (choice : Choice α) : Parser (Option α) := do
  match choice (← peek) with
  | some part => return some (← part)
  | none => return none

/-- At most `n` parts, as long as there is a choice. -/
def repeatUpTo {α : Type} (choice : Choice α) : Nat → Parser (List α)
  | 0 => return []
  | n + 1 => do
    match choice (← peek) with
    | some part =>
      let first ← part
      let more ← repeatUpTo choice n
      return first :: more
    | none => return []

def many {α : Type} (choice : Choice α) : Parser (List α) := fun s =>
  repeatUpTo choice (s.upcoming.length + 1) s

/-- At most `n` more items after the first. Once a separator is taken, `more` decides from the
item before it whether another item follows. -/
def separatedUpTo {α : Type} (separator : TokenKind) (more : α → Parser Bool) (item : Parser α) :
    Nat → α → Parser (Separated α × Option Token)
  | 0, first => return (.one first, none)
  | n + 1, first => do
    if ← isAt separator then
      let token ← bump
      if ← more first then
        let next ← item
        let (rest, trailing) ← separatedUpTo separator more item n next
        return (.cons first token rest, trailing)
      else return (.one first, some token)
    else return (.one first, none)

/-- The items after the first one and the separator that may trail. -/
def separatedFrom {α : Type} (separator : TokenKind) (more : α → Parser Bool) (item : Parser α)
    (first : α) : Parser (Separated α × Option Token) := fun s =>
  separatedUpTo separator more item (s.upcoming.length + 1) first s

/-- Items with a separator between each two neighbours and none at the end. -/
def separated {α : Type} (separator : TokenKind) (item : Parser α) : Parser (Separated α) := do
  let first ← item
  return (← separatedFrom separator (fun _ => pure true) item first).1

end Parser

end Verbatim
