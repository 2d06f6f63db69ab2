import Verbatim.Bracket
import Verbatim.Grammar.Expression
import Verbatim.Proofs.Ladder.Level

/-!
# Derivations of expressions

The grammar as a set of trees, without a parser: a phrase is what may stand in some place of
a source, and a tree is derived from a phrase by the productions below, which also fix the
kinds of its tokens. Most phrases are other phrases and something more; these inclusions are
the unit productions. What holds of all parsed expressions follows from their derivations by
cases on the last production.
-/

namespace Verbatim

open Grammar (isUnpacking)

inductive Phrase where
  | level (level : Level)
  /-- A test that is no conditional. -/
  | noConditional
  | named
  /-- An operand after one or two stars. -/
  | starred (kind : UnaryKind) (operand : Level)
  | testOrStar | exprOrStar | namedOrStar | typeElement | argument | subscript
  | dictElement | setElement
  | yield
  | list (kind : SequenceKind) (element : Phrase)
  | comprehensionOrList (kind : SequenceKind) (element : Phrase)
  | inside (kind : DisplayKind)
  | value
  | trailer | loop | clause
  | declarator (typed : Bool)
  | param (typed : Bool)
  | params (typed : Bool)

namespace Phrase

def test : Phrase := level .test
def orTest : Phrase := level (.fold .or)
def expr : Phrase := level (.fold .bitOr)
def factor : Phrase := level .factor

/-- The unit productions. -/
inductive Includes : Phrase → Phrase → Prop
  | tighter (L : Level) : Includes (level L) (level L.tighter)
  | noConditional : Includes noConditional orTest
  | named : Includes named test
  | testOrStar : Includes testOrStar test
  | testStar : Includes testOrStar (starred .star (.fold .bitOr))
  | exprOrStar : Includes exprOrStar expr
  | exprStar : Includes exprOrStar (starred .star (.fold .bitOr))
  | namedOrStar : Includes namedOrStar named
  | namedStar : Includes namedOrStar (starred .star (.fold .bitOr))
  | typeElement : Includes typeElement test
  | typeStar (kind : UnaryKind) : Includes typeElement (starred kind .test)
  | argument : Includes argument named
  | argumentStar (kind : UnaryKind) : Includes argument (starred kind .test)
  | subscript : Includes subscript test
  | unpacking : Includes dictElement (starred .doubleStar (.fold .bitOr))
  | element : Includes setElement test
  | elementStar : Includes setElement (starred .star (.fold .bitOr))
  | single (kind : SequenceKind) (P : Phrase) : Includes (list kind P) P
  | plainList (kind : SequenceKind) (P : Phrase) :
      Includes (comprehensionOrList kind P) (list kind P)
  | yielded : Includes (inside .tuple) yield
  | grouped : Includes (inside .tuple) (comprehensionOrList .testListComp namedOrStar)
  | listed : Includes (inside .list) (comprehensionOrList .testListComp namedOrStar)
  | dictionary :
      Includes (inside .dictionary) (comprehensionOrList .dictMaker dictElement)
  | set : Includes (inside .set) (comprehensionOrList .setMaker setElement)
  | yieldValue : Includes value yield
  | testValue : Includes value testOrStar
  | listValue : Includes value (list .testList test)
  | firstClause : Includes clause loop

/-- What the lists and the comprehensions of a kind are made of. -/
inductive ElementOf : Phrase → SequenceKind → Prop
  | test : ElementOf test .testList
  | testOrStar : ElementOf testOrStar .testList
  | exprOrStar : ElementOf exprOrStar .exprList
  | namedOrStar : ElementOf namedOrStar .testListComp
  | subscript : ElementOf subscript .subscriptList
  | argument : ElementOf argument .argList
  | dictElement : ElementOf dictElement .dictMaker
  | setElement : ElementOf setElement .setMaker
  | typeElement : ElementOf typeElement .typeList

end Phrase

namespace DisplayKind

def bracket : DisplayKind → Bracket
  | tuple => .paren
  | list => .square
  | dictionary | set => .brace

end DisplayKind

namespace UnaryKind

def mark? : UnaryKind → Option TokenKind
  | star => some .star
  | doubleStar => some .doubleStar
  | _ => none

end UnaryKind

inductive Derives : Phrase → Node → Prop
  | unit {P Q : Phrase} {n : Node} (h : Q.Includes P) (hn : Derives P n) : Derives Q n
  -- atoms and what is applied to them
  | leaf {kind : LeafKind} {token : Token} (h : LeafKind.ofToken? token.kind = some kind) :
      Derives (.level .atom) (.expr (.leaf kind token))
  | strings {span : Span} {first : Token} {more : List Token} (hfirst : first.kind = .string)
      (hmore : ∀ t ∈ more, t.kind = .string) :
      Derives (.level .atom) (.expr (.strings span first more))
  | display {span : Span} {kind : DisplayKind} {opener closer : Token} {body : Option Expr}
      (hopener : opener.kind = kind.bracket.openKind)
      (hcloser : closer.kind = kind.bracket.closeKind)
      (hbody : ∀ e, body = some e → Derives (.inside kind) (.expr e))
      (hset : kind = .set → body.isSome = true) :
      Derives (.level .atom) (.expr (.display span kind opener body closer))
  | applied {span : Span} {await : Option Token} {atom : Expr} {trailers : List Trailer}
      (hawait : ∀ t, await = some t → t.kind = .kwAwait)
      (hatom : Derives (.level .atom) (.expr atom))
      (htrailers : ∀ t ∈ trailers, Derives .trailer (.trailer t))
      (hne : await.isSome = true ∨ trailers ≠ []) :
      Derives (.level .applied) (.expr (.applied span await atom trailers))
  -- operators
  | power {span : Span} {base exponent : Expr} {op : Token} (hop : op.kind = .doubleStar)
      (hbase : Derives (.level .applied) (.expr base))
      (hexponent : Derives .factor (.expr exponent)) :
      Derives (.level .power) (.expr (.binary span .power base op exponent))
  | sign {span : Span} {kind : UnaryKind} {op : Token} {operand : Expr}
      (hop : UnaryKind.sign? op.kind = some kind) (hoperand : Derives .factor (.expr operand)) :
      Derives .factor (.expr (.unary span kind op operand))
  | binary {span : Span} {L : Level} {kind : BinaryKind} {left right : Expr} {op : Token}
      (hop : L.Admits (.binary span kind op right)) (hleft : Derives (.level L) (.expr left))
      (hright : Derives (.level L.tighter) (.expr right)) :
      Derives (.level L) (.expr (.binary span kind left op right))
  | compound {span : Span} {L : Level} {kind : CompoundKind} {left right : Expr}
      {first second : Token}
      (hop : L.Admits (.compound span kind first second right))
      (hleft : Derives (.level L) (.expr left))
      (hright : Derives (.level L.tighter) (.expr right)) :
      Derives (.level L) (.expr (.compound span kind left first second right))
  | not {span : Span} {op : Token} {operand : Expr} (hop : op.kind = .kwNot)
      (hoperand : Derives (.level .not) (.expr operand)) :
      Derives (.level .not) (.expr (.unary span .not op operand))
  | lambda {P : Phrase} {span : Span} {keyword colon : Token} {params : Option Params} {body : Expr}
      (hP : P = .test ∨ P = .noConditional) (hkeyword : keyword.kind = .kwLambda)
      (hparams : ∀ ps, params = some ps → Derives (.params false) (.params false ps))
      (hcolon : colon.kind = .colon) (hbody : Derives P (.expr body)) :
      Derives P (.expr (.lambda span keyword params colon body))
  | conditional {span : Span} {body condition alternative : Expr} {ifToken elseToken : Token}
      (hif : ifToken.kind = .kwIf) (helse : elseToken.kind = .kwElse)
      (hbody : Derives .orTest (.expr body)) (hcondition : Derives .orTest (.expr condition))
      (halternative : Derives .test (.expr alternative)) :
      Derives .test (.expr (.conditional span body ifToken condition elseToken alternative))
  | named {span : Span} {left right : Expr} {op : Token} (hop : op.kind = .colonEqual)
      (hname : left.name?.isSome = true) (hleft : Derives .test (.expr left))
      (hright : Derives .test (.expr right)) :
      Derives .named (.expr (.binary span .named left op right))
  | starred {span : Span} {kind : UnaryKind} {L : Level} {op : Token} {operand : Expr}
      (hop : kind.mark? = some op.kind) (hoperand : Derives (.level L) (.expr operand)) :
      Derives (.starred kind L) (.expr (.unary span kind op operand))
  -- yields, comprehensions and lists
  | yield {span : Span} {keyword : Token} {value : Option Expr} (hkeyword : keyword.kind = .kwYield)
      (hvalue : ∀ e, value = some e → Derives (.list .testList .testOrStar) (.expr e)) :
      Derives .yield (.expr (.yield span keyword value))
  | yieldFrom {span : Span} {keyword fromToken : Token} {value : Expr}
      (hkeyword : keyword.kind = .kwYield)
      (hfrom : fromToken.kind = .kwFrom) (hvalue : Derives .test (.expr value)) :
      Derives .yield (.expr (.yieldFrom span keyword fromToken value))
  | comprehension {P : Phrase} {span : Span} {kind : SequenceKind} {element : Expr}
      {clause : Clause}
      (helement : Derives P (.expr element)) (hclause : Derives .loop (.clause clause))
      (hentry : kind = .dictMaker → isUnpacking element = false) (hkind : P.ElementOf kind) :
      Derives (.comprehensionOrList kind P) (.expr (.comprehension span element clause))
  | sequence {P : Phrase} {span : Span} {kind : SequenceKind} {items : Separated Expr}
      {trailing : Option Token}
      (hitems : ∀ e ∈ items.items, Derives P (.expr e))
      (hseparators : ∀ t ∈ items.separators, t.kind = .comma)
      (htrailing : ∀ t, trailing = some t → t.kind = .comma)
      (hmany : items.separators ≠ [] ∨ trailing.isSome = true) (hkind : P.ElementOf kind) :
      Derives (.list kind P) (.expr (.sequence span kind items trailing))
  | dictEntry {span : Span} {key value : Expr} {colon : Token} (hcolon : colon.kind = .colon)
      (hkey : Derives .test (.expr key)) (hvalue : Derives .test (.expr value)) :
      Derives .dictElement (.expr (.dictEntry span key colon value))
  | argument {span : Span} {name value : Expr} {equal : Token} (hequal : equal.kind = .equal)
      (hname : name.name?.isSome = true) (hleft : Derives .named (.expr name))
      (hvalue : Derives .test (.expr value)) :
      Derives .argument (.expr (.argument span name equal value))
  | slice {span : Span} {lower upper : Option Expr} {step : Option Step} {colon : Token}
      (hcolon : colon.kind = .colon) (hlower : ∀ e, lower = some e → Derives .test (.expr e))
      (hupper : ∀ e, upper = some e → Derives .test (.expr e))
      (hstep : ∀ second value, step = some (.mk second value) → second.kind = .colon)
      (hvalue : ∀ second e, step = some (.mk second (some e)) → Derives .test (.expr e)) :
      Derives .subscript (.expr (.slice span lower colon upper step))
  -- trailers
  | member {span : Span} {dot name : Token} (hdot : dot.kind = .dot) (hname : name.kind = .name) :
      Derives .trailer (.trailer (.member span dot name))
  | call {span : Span} {opener closer : Token} {arguments : Option Expr}
      (hopener : opener.kind = .leftParen)
      (hcloser : closer.kind = .rightParen)
      (harguments : ∀ e, arguments = some e →
        Derives (.comprehensionOrList .argList .argument) (.expr e)) :
      Derives .trailer (.trailer (.call span opener arguments closer))
  | index {span : Span} {opener closer : Token} {subscripts : Option Expr}
      (hopener : opener.kind = .leftBracket) (hcloser : closer.kind = .rightBracket)
      (hsubscripts : ∀ e, subscripts = some e →
        Derives (.list .subscriptList .subscript) (.expr e)) :
      Derives .trailer (.trailer (.index span opener subscripts closer))
  -- clauses
  | loop {span : Span} {async : Option Token} {forToken inToken : Token} {targets source : Expr}
      {next : Option Clause} (hasync : ∀ t, async = some t → t.kind = .kwAsync)
      (hfor : forToken.kind = .kwFor) (hin : inToken.kind = .kwIn)
      (htargets : Derives (.list .exprList .exprOrStar) (.expr targets))
      (hsource : Derives .orTest (.expr source))
      (hnext : ∀ c, next = some c → Derives .clause (.clause c)) :
      Derives .loop (.clause (.loop span async forToken targets inToken source next))
  | guard {span : Span} {ifToken : Token} {condition : Expr} {next : Option Clause}
      (hif : ifToken.kind = .kwIf) (hcondition : Derives .noConditional (.expr condition))
      (hnext : ∀ c, next = some c → Derives .clause (.clause c)) :
      Derives .clause (.clause (.guard span ifToken condition next))
  -- parameters
  | declarator {span : Span} {typed : Bool} {name : Token} {hint : Option TypeHint}
      (hname : name.kind = .name) (htyped : typed = false → hint = none)
      (hcolon : ∀ within colon e, hint = some (.mk within colon e) → colon.kind = .colon)
      (hhint : ∀ within colon e, hint = some (.mk within colon e) → Derives .test (.expr e)) :
      Derives (.declarator typed) (.declarator (.mk span name hint))
  | single {typed : Bool} {d : Declarator} (hd : Derives (.declarator typed) (.declarator d)) :
      Derives (.param typed) (.param (.single d))
  | withDefault {span : Span} {typed : Bool} {d : Declarator} {assign : Token} {value : Expr}
      (hd : Derives (.declarator typed) (.declarator d)) (hassign : assign.kind = .equal)
      (hvalue : Derives .test (.expr value)) :
      Derives (.param typed) (.param (.withDefault span d assign value))
  | keywordOnly {span : Span} {typed : Bool} {star : Token} (hstar : star.kind = .star) :
      Derives (.param typed) (.param (.keywordOnly span star))
  | variadic {span : Span} {typed : Bool} {star : Token} {d : Declarator}
      (hstar : star.kind = .star)
      (hd : Derives (.declarator typed) (.declarator d)) :
      Derives (.param typed) (.param (.variadic span star d))
  | keywordVariadic {span : Span} {typed : Bool} {op : Token} {d : Declarator}
      (hop : op.kind = .doubleStar)
      (hd : Derives (.declarator typed) (.declarator d)) :
      Derives (.param typed) (.param (.keywordVariadic span op d))
  | positionalOnly {typed : Bool} {slash : Token} (hslash : slash.kind = .slash) :
      Derives (.param typed) (.param (.positionalOnly slash))
  | params {span : Span} {typed : Bool} {items : Separated Param} {trailing : Option Token}
      (hitems : ∀ p ∈ items.items, Derives (.param typed) (.param p))
      (hseparators : ∀ t ∈ items.separators, t.kind = .comma)
      (htrailing : ∀ t, trailing = some t → t.kind = .comma)
      (hlast : ∀ p ∈ items.init, p.isKeywordVariadic = false) :
      Derives (.params typed) (.params typed (.mk span items trailing))

/-- The three forms of what is derived as a comprehension or a list. -/
inductive ListForm (kind : SequenceKind) (P : Phrase) : Expr → Prop
  | single {e : Expr} (h : Derives P (.expr e)) : ListForm kind P e
  | comprehension {span : Span} {element : Expr} {clause : Clause}
      (helement : Derives P (.expr element))
      (hentry : kind = .dictMaker → isUnpacking element = false) :
      ListForm kind P (.comprehension span element clause)
  | sequence {span : Span} {items : Separated Expr} {trailing : Option Token}
      (hitems : ∀ e ∈ items.items, Derives P (.expr e)) :
      ListForm kind P (.sequence span kind items trailing)

theorem Derives.listForm {kind : SequenceKind} {P : Phrase} {e : Expr}
    (h : Derives (.comprehensionOrList kind P) (.expr e)) : ListForm kind P e := by
  cases h with
  | unit h hn =>
    cases h
    cases hn with
    | unit h hn =>
      cases h
      exact .single hn
    | sequence hitems => exact .sequence hitems
    | lambda h => rcases h with h | h <;> cases h
  | comprehension helement _ hentry => exact .comprehension helement hentry
  | lambda h => rcases h with h | h <;> cases h

end Verbatim
