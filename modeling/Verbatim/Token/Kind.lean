/-!
# Token kinds

The closed set of token kinds. Keywords, operators and delimiters have a fixed text;
the structural markers and the four kinds that carry a payload have none. Everything
said about a kind is one of the tables below.
-/

namespace Verbatim

inductive TokenKind where
  | indent | dedent | newline | endOfFile
  | name | number | string | typeComment
  | kwFalse | kwNone | kwTrue | kwAnd | kwAs | kwAssert | kwAsync | kwAwait | kwBreak | kwClass
  | kwContinue | kwDef | kwDel | kwElif | kwElse | kwExcept | kwFinally | kwFor | kwFrom
  | kwGlobal | kwIf | kwImport | kwIn | kwIs | kwLambda | kwNonlocal | kwNot | kwOr | kwPass
  | kwRaise | kwReturn | kwTry | kwWhile | kwWith | kwYield
  | plus | minus | star | doubleStar | slash | doubleSlash | percent | atSign | leftShift
  | rightShift | ampersand | pipe | caret | tilde | colonEqual | less | greater | lessEqual
  | greaterEqual | equalEqual | notEqual | lessGreater | arrow | plusEqual | minusEqual
  | starEqual | doubleStarEqual | slashEqual | doubleSlashEqual | percentEqual | atEqual
  | leftShiftEqual | rightShiftEqual | ampersandEqual | pipeEqual | caretEqual | leftParen
  | rightParen | leftBracket | rightBracket | leftBrace | rightBrace | comma | colon | semicolon
  | dot | ellipsis | equal
deriving DecidableEq, Repr

namespace TokenKind

def keywords : List TokenKind :=
  [.kwFalse, .kwNone, .kwTrue, .kwAnd, .kwAs, .kwAssert, .kwAsync, .kwAwait, .kwBreak, .kwClass,
   .kwContinue, .kwDef, .kwDel, .kwElif, .kwElse, .kwExcept, .kwFinally, .kwFor, .kwFrom,
   .kwGlobal, .kwIf, .kwImport, .kwIn, .kwIs, .kwLambda, .kwNonlocal, .kwNot, .kwOr, .kwPass,
   .kwRaise, .kwReturn, .kwTry, .kwWhile, .kwWith, .kwYield]

def operators : List TokenKind :=
  [.doubleStarEqual, .doubleSlashEqual, .leftShiftEqual, .rightShiftEqual, .ellipsis, .doubleStar,
   .doubleSlash, .leftShift, .rightShift, .colonEqual, .lessEqual, .greaterEqual, .equalEqual,
   .notEqual, .lessGreater, .arrow, .plusEqual, .minusEqual, .starEqual, .slashEqual,
   .percentEqual, .atEqual, .ampersandEqual, .pipeEqual, .caretEqual, .plus, .minus, .star,
   .slash, .percent, .atSign, .ampersand, .pipe, .caret, .tilde, .less, .greater, .leftParen,
   .rightParen, .leftBracket, .rightBracket, .leftBrace, .rightBrace, .comma, .colon, .semicolon,
   .dot, .equal]

def all : List TokenKind :=
  [.indent, .dedent, .newline, .endOfFile, .name, .number, .string, .typeComment]
    ++ keywords ++ operators

def label : TokenKind → String
  | .indent => "Indent"
  | .dedent => "Dedent"
  | .newline => "Newline"
  | .endOfFile => "EndOfFile"
  | .name => "Name"
  | .number => "Number"
  | .string => "String"
  | .typeComment => "TypeComment"
  | .kwFalse => "False"
  | .kwNone => "None"
  | .kwTrue => "True"
  | .kwAnd => "And"
  | .kwAs => "As"
  | .kwAssert => "Assert"
  | .kwAsync => "Async"
  | .kwAwait => "Await"
  | .kwBreak => "Break"
  | .kwClass => "Class"
  | .kwContinue => "Continue"
  | .kwDef => "Def"
  | .kwDel => "Del"
  | .kwElif => "Elif"
  | .kwElse => "Else"
  | .kwExcept => "Except"
  | .kwFinally => "Finally"
  | .kwFor => "For"
  | .kwFrom => "From"
  | .kwGlobal => "Global"
  | .kwIf => "If"
  | .kwImport => "Import"
  | .kwIn => "In"
  | .kwIs => "Is"
  | .kwLambda => "Lambda"
  | .kwNonlocal => "Nonlocal"
  | .kwNot => "Not"
  | .kwOr => "Or"
  | .kwPass => "Pass"
  | .kwRaise => "Raise"
  | .kwReturn => "Return"
  | .kwTry => "Try"
  | .kwWhile => "While"
  | .kwWith => "With"
  | .kwYield => "Yield"
  | .plus => "Plus"
  | .minus => "Minus"
  | .star => "Star"
  | .doubleStar => "DoubleStar"
  | .slash => "Slash"
  | .doubleSlash => "DoubleSlash"
  | .percent => "Percent"
  | .atSign => "At"
  | .leftShift => "LeftShift"
  | .rightShift => "RightShift"
  | .ampersand => "Ampersand"
  | .pipe => "Pipe"
  | .caret => "Caret"
  | .tilde => "Tilde"
  | .colonEqual => "ColonEqual"
  | .less => "Less"
  | .greater => "Greater"
  | .lessEqual => "LessEqual"
  | .greaterEqual => "GreaterEqual"
  | .equalEqual => "EqualEqual"
  | .notEqual => "NotEqual"
  | .lessGreater => "LessGreater"
  | .arrow => "Arrow"
  | .plusEqual => "PlusEqual"
  | .minusEqual => "MinusEqual"
  | .starEqual => "StarEqual"
  | .doubleStarEqual => "DoubleStarEqual"
  | .slashEqual => "SlashEqual"
  | .doubleSlashEqual => "DoubleSlashEqual"
  | .percentEqual => "PercentEqual"
  | .atEqual => "AtEqual"
  | .leftShiftEqual => "LeftShiftEqual"
  | .rightShiftEqual => "RightShiftEqual"
  | .ampersandEqual => "AmpersandEqual"
  | .pipeEqual => "PipeEqual"
  | .caretEqual => "CaretEqual"
  | .leftParen => "LeftParen"
  | .rightParen => "RightParen"
  | .leftBracket => "LeftBracket"
  | .rightBracket => "RightBracket"
  | .leftBrace => "LeftBrace"
  | .rightBrace => "RightBrace"
  | .comma => "Comma"
  | .colon => "Colon"
  | .semicolon => "Semicolon"
  | .dot => "Dot"
  | .ellipsis => "Ellipsis"
  | .equal => "Equal"

/-- The one text that tokens of a kind have, for keywords, operators and delimiters. -/
def fixedText? : TokenKind → Option String
  | .indent | .dedent | .newline | .endOfFile | .name | .number | .string | .typeComment => none
  | .kwFalse => some "False"
  | .kwNone => some "None"
  | .kwTrue => some "True"
  | .kwAnd => some "and"
  | .kwAs => some "as"
  | .kwAssert => some "assert"
  | .kwAsync => some "async"
  | .kwAwait => some "await"
  | .kwBreak => some "break"
  | .kwClass => some "class"
  | .kwContinue => some "continue"
  | .kwDef => some "def"
  | .kwDel => some "del"
  | .kwElif => some "elif"
  | .kwElse => some "else"
  | .kwExcept => some "except"
  | .kwFinally => some "finally"
  | .kwFor => some "for"
  | .kwFrom => some "from"
  | .kwGlobal => some "global"
  | .kwIf => some "if"
  | .kwImport => some "import"
  | .kwIn => some "in"
  | .kwIs => some "is"
  | .kwLambda => some "lambda"
  | .kwNonlocal => some "nonlocal"
  | .kwNot => some "not"
  | .kwOr => some "or"
  | .kwPass => some "pass"
  | .kwRaise => some "raise"
  | .kwReturn => some "return"
  | .kwTry => some "try"
  | .kwWhile => some "while"
  | .kwWith => some "with"
  | .kwYield => some "yield"
  | .plus => some "+"
  | .minus => some "-"
  | .star => some "*"
  | .doubleStar => some "**"
  | .slash => some "/"
  | .doubleSlash => some "//"
  | .percent => some "%"
  | .atSign => some "@"
  | .leftShift => some "<<"
  | .rightShift => some ">>"
  | .ampersand => some "&"
  | .pipe => some "|"
  | .caret => some "^"
  | .tilde => some "~"
  | .colonEqual => some ":="
  | .less => some "<"
  | .greater => some ">"
  | .lessEqual => some "<="
  | .greaterEqual => some ">="
  | .equalEqual => some "=="
  | .notEqual => some "!="
  | .lessGreater => some "<>"
  | .arrow => some "->"
  | .plusEqual => some "+="
  | .minusEqual => some "-="
  | .starEqual => some "*="
  | .doubleStarEqual => some "**="
  | .slashEqual => some "/="
  | .doubleSlashEqual => some "//="
  | .percentEqual => some "%="
  | .atEqual => some "@="
  | .leftShiftEqual => some "<<="
  | .rightShiftEqual => some ">>="
  | .ampersandEqual => some "&="
  | .pipeEqual => some "|="
  | .caretEqual => some "^="
  | .leftParen => some "("
  | .rightParen => some ")"
  | .leftBracket => some "["
  | .rightBracket => some "]"
  | .leftBrace => some "\x7b"
  | .rightBrace => some "\x7d"
  | .comma => some ","
  | .colon => some ":"
  | .semicolon => some ";"
  | .dot => some "."
  | .ellipsis => some "..."
  | .equal => some "="

def hasText (kind : TokenKind) (t : List Char) : Bool :=
  kind.fixedText?.any fun text => text.toList == t

def keyword? (identifier : List Char) : Option TokenKind :=
  keywords.find? fun kind => kind.hasText identifier

def ofLabel? (label : String) : Option TokenKind :=
  all.find? fun kind => kind.label == label

def isKeyword (kind : TokenKind) : Bool :=
  keywords.contains kind

def isStructural : TokenKind → Bool
  | .indent | .dedent | .newline | .endOfFile => true
  | _ => false

def isAugmentedAssign : TokenKind → Bool
  | .plusEqual | .minusEqual | .starEqual | .doubleStarEqual | .slashEqual | .doubleSlashEqual
  | .percentEqual | .atEqual | .leftShiftEqual | .rightShiftEqual | .ampersandEqual | .pipeEqual
  | .caretEqual => true
  | _ => false

/-- Whether a token of this kind can begin an expression. After a comma this decides between
another element and a trailing comma. -/
def startsExpression : TokenKind → Bool
  | .name | .number | .string | .kwFalse | .kwNone | .kwTrue | .kwAwait | .kwLambda | .kwNot
  | .plus | .minus | .tilde | .star | .doubleStar | .leftParen | .leftBracket | .leftBrace
  | .ellipsis => true
  | _ => false

def display (kind : TokenKind) : String :=
  match kind with
  | .indent => "indent"
  | .dedent => "dedent"
  | .newline => "newline"
  | .endOfFile => "end of file"
  | .name => "name"
  | .number => "number"
  | .string => "string"
  | .typeComment => "type comment"
  | _ => "'" ++ kind.fixedText?.getD kind.label ++ "'"

theorem mem_all (kind : TokenKind) : kind ∈ all := by
  cases kind <;> decide

theorem ofLabel?_label (kind : TokenKind) : ofLabel? kind.label = some kind := by
  cases kind <;> decide

theorem isKeyword_iff {kind : TokenKind} : kind.isKeyword ↔ kind ∈ keywords := by
  simp [isKeyword]

end TokenKind

end Verbatim
