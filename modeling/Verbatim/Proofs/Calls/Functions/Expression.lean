import Verbatim.Proofs.Calls.Expression
import Verbatim.Proofs.Calls.Family

/-!
# The functions of the expression grammar

The functions of the expression grammar as a family. The code of each takes the functions that it
calls from the family, so that it is known where it calls which of them, and over the functions
themselves it is what the grammar has. Helpers that are handed a parser, as those for comma lists
and for operators of one level, stand in the code of the functions that hand it to them. Until it
has taken a token, a function calls functions of lower ranks only.
-/

namespace Verbatim.Grammar

open Verbatim.Parser

/-- The functions of the expression grammar, with what they are called with. -/
inductive ExprFn where
  | rule (rule : Rule)
  | lambda (body : Rule)
  | andTest
  | comparison
  | xorExpr
  | andExpr
  | shiftExpr
  | arithExpr
  | term
  | power
  | appliedAtom
  | atom
  | stringLiterals
  | member
  | call
  | index
  | parenBody
  | testListComp
  | braceDisplay
  | braceBody (start : Nat) (first : Expr) (isDictionary : Bool)
  | braceElement (mode : BraceMode)
  | comprehension (start : Nat) (element : Expr)
  | loop
  | guardClause
  | nextClause
  | starExpr
  | testOrStar
  | exprOrStar
  | namedTest
  | namedOrStar
  | typeElement
  | testList
  | testOrStarList
  | exprList
  | typeList
  | argument
  | argList
  | optionalTest
  | sliceStep
  | sliceFrom (start : Nat) (lower : Option Expr)
  | subscript
  | subscriptList
  | yieldExpr
  | typeHint
  | declarator (typed : Bool)
  | variadicParam (typed : Bool)
  | param (typed : Bool)
  | params (typed : Bool) (closer : TokenKind)

namespace ExprFn

abbrev Result : ExprFn → Type
  | member | call | index => Trailer
  | loop | guardClause => Clause
  | nextClause => Option Clause
  | optionalTest => Option Expr
  | sliceStep => Step
  | typeHint => TypeHint
  | declarator _ => Declarator
  | variadicParam _ | param _ => Param
  | params _ _ => Params
  | _ => Expr

/-- The functions as the grammar has them. -/
def run : Family Result
  | rule r => grammarRules r
  | lambda body => Grammar.lambda grammarRules (grammarRules body)
  | andTest => leftFold .and (Grammar.notTest grammarRules)
  | comparison => comparisons (Grammar.expr grammarRules)
  | xorExpr => [.bitXor, .bitAnd, .shift, .arith, .term].foldr leftFold (factor grammarRules)
  | andExpr => [.bitAnd, .shift, .arith, .term].foldr leftFold (factor grammarRules)
  | shiftExpr => [.shift, .arith, .term].foldr leftFold (factor grammarRules)
  | arithExpr => [.arith, .term].foldr leftFold (factor grammarRules)
  | term => leftFold .term (factor grammarRules)
  | power => Grammar.power grammarRules
  | appliedAtom => Grammar.appliedAtom grammarRules
  | atom => Grammar.atom grammarRules
  | stringLiterals => Grammar.stringLiterals
  | member => Grammar.member
  | call => Grammar.call grammarRules
  | index => Grammar.index grammarRules
  | parenBody => Grammar.parenBody grammarRules
  | testListComp => Grammar.testListComp grammarRules
  | braceDisplay => Grammar.braceDisplay grammarRules
  | braceBody start first isDictionary => Grammar.braceBody grammarRules start first isDictionary
  | braceElement mode => Grammar.braceElement grammarRules mode
  | comprehension start element => Grammar.comprehension grammarRules start element
  | loop => Grammar.loop grammarRules (Grammar.nextClause grammarRules)
  | guardClause => Grammar.guardClause grammarRules (Grammar.nextClause grammarRules)
  | nextClause => Grammar.nextClause grammarRules
  | starExpr => Grammar.starExpr grammarRules
  | testOrStar => Grammar.testOrStar grammarRules
  | exprOrStar => Grammar.exprOrStar grammarRules
  | namedTest => Grammar.namedTest grammarRules
  | namedOrStar => Grammar.namedOrStar grammarRules
  | typeElement => starredTest grammarRules (grammarRules .test)
  | testList => Grammar.testList grammarRules
  | testOrStarList => Grammar.testOrStarList grammarRules
  | exprList => Grammar.exprList grammarRules
  | typeList => Grammar.typeList grammarRules
  | argument => Grammar.argument grammarRules
  | argList => Grammar.argList grammarRules
  | optionalTest => Grammar.optionalTest grammarRules
  | sliceStep => Grammar.sliceStep grammarRules
  | sliceFrom start lower => Grammar.sliceFrom grammarRules start lower
  | subscript => Grammar.subscript grammarRules
  | subscriptList => Grammar.subscriptList grammarRules
  | yieldExpr => Grammar.yieldExpr grammarRules
  | typeHint => Grammar.typeHint grammarRules
  | declarator typed => Grammar.declarator grammarRules typed
  | variadicParam typed => Grammar.variadicParam grammarRules typed
  | param typed => Grammar.param grammarRules typed
  | params typed closer => Grammar.params grammarRules typed closer

def rank : ExprFn → Nat
  | stringLiterals | member | call | index | braceDisplay | loop | guardClause | starExpr
  | sliceStep | sliceFrom _ _ | yieldExpr | typeHint | declarator _ | variadicParam _
  | lambda _ => 0
  | atom | comprehension _ _ | nextClause | param _ => 1
  | appliedAtom | params _ _ => 2
  | power => 3
  | rule .factor => 4
  | term => 5
  | arithExpr => 6
  | shiftExpr => 7
  | andExpr => 8
  | xorExpr => 9
  | rule .expr => 10
  | comparison => 11
  | rule .notTest => 12
  | andTest => 13
  | rule .orTest => 14
  | rule .test | rule .testNoConditional => 15
  | testOrStar | exprOrStar | namedTest | typeElement | braceElement _ | optionalTest
  | subscript | testList => 16
  | namedOrStar | argument | testOrStarList | exprList | typeList | subscriptList
  | braceBody _ _ _ => 17
  | testListComp | argList => 18
  | parenBody => 19

/-- A comprehension over an element, or a comma list that begins with it. -/
def comprehensionOr (comprehension : Parser Expr) (start : Nat) (kind : SequenceKind)
    (element : Parser Expr) (first : Expr) : Parser Expr := do
  if startsLoop (← peek) then comprehension
  else commaListFrom start kind TokenKind.startsExpression element first

section Code

variable (self : Family Result)

def rules : Rules :=
  fun rule => self (.rule rule)

def ruleCode : Rule → Parser Expr
  | .test => do
    if ← isAt .kwLambda then self (.lambda .test)
    else
      let start ← start
      let body ← self (.rule .orTest)
      match ← eat .kwIf with
      | some ifToken =>
        let condition ← self (.rule .orTest)
        let elseToken ← expect .kwElse
        let alternative ← self (.rule .test)
        return .conditional (← spanFrom start) body ifToken condition elseToken alternative
      | none => return body
  | .testNoConditional => do
    if ← isAt .kwLambda then self (.lambda .testNoConditional) else self (.rule .orTest)
  | .orTest => leftFold .or (self .andTest)
  | .notTest => do
    if ← isAt .kwNot then prefixed .not (self (.rule .notTest)) else self .comparison
  | .expr => leftFold .bitOr (self .xorExpr)
  | .factor => do
    match UnaryKind.sign? (← peek) with
    | some kind => prefixed kind (self (.rule .factor))
    | none => self .power

/-- The code of a function, over the functions that it calls. -/
def code : Family Result
  | rule r => ruleCode self r
  | lambda body => do
    let start ← start
    let keyword ← bump
    let params ← optional (.startedBy (· != .colon) (self (.params false .colon)))
    let colon ← expect .colon
    let body ← self (.rule body)
    return .lambda (← spanFrom start) keyword params colon body
  | andTest => leftFold .and (self (.rule .notTest))
  | comparison => comparisons (self (.rule .expr))
  | xorExpr => leftFold .bitXor (self .andExpr)
  | andExpr => leftFold .bitAnd (self .shiftExpr)
  | shiftExpr => leftFold .shift (self .arithExpr)
  | arithExpr => leftFold .arith (self .term)
  | term => leftFold .term (self (.rule .factor))
  | power => do
    let start ← start
    let base ← self .appliedAtom
    match ← eat .doubleStar with
    | some op =>
      let exponent ← self (.rule .factor)
      return .binary (← spanFrom start) .power base op exponent
    | none => return base
  | appliedAtom => do
    let start ← start
    let await ← eat .kwAwait
    let atom ← self .atom
    let trailers ← many fun
      | .dot => some (self .member)
      | .leftParen => some (self .call)
      | .leftBracket => some (self .index)
      | _ => none
    if await.isNone && trailers.isEmpty then return atom
    else return .applied (← spanFrom start) await atom trailers
  | atom => do
    match ← peek with
    | .leftParen => display .tuple .rightParen (self .parenBody)
    | .leftBracket => display .list .rightBracket (self .testListComp)
    | .leftBrace => self .braceDisplay
    | .string => self .stringLiterals
    | kind =>
      match LeafKind.ofToken? kind with
      | some leaf => return .leaf leaf (← bump)
      | none => fail .expectedAtom
  | stringLiterals => Grammar.stringLiterals
  | member => Grammar.member
  | call => do
    let start ← start
    let (opener, arguments, closer) ← bracketed .rightParen (self .argList)
    return .call (← spanFrom start) opener arguments closer
  | index => do
    let start ← start
    let (opener, subscripts, closer) ← bracketed .rightBracket (self .subscriptList)
    return .index (← spanFrom start) opener subscripts closer
  | parenBody => do
    if ← isAt .kwYield then self .yieldExpr else self .testListComp
  | testListComp => do
    let start ← start
    let first ← self .namedOrStar
    comprehensionOr (self (.comprehension start first)) start .testListComp (self .namedOrStar)
      first
  | braceDisplay => do
    let start ← start
    let opener ← bump
    match ← eat .rightBrace with
    | some closer => return .display (← spanFrom start) .dictionary opener none closer
    | none =>
      let bodyStart ← Parser.start
      let first ← self (.braceElement .undecided)
      let isDictionary := isDictEntry first || isUnpacking first
      let body ← self (.braceBody bodyStart first isDictionary)
      let closer ← expect .rightBrace
      let kind := if isDictionary then .dictionary else .set
      return .display (← spanFrom start) kind opener (some body) closer
  | braceBody start first isDictionary => do
    if startsLoop (← peek) && isUnpacking first then fail .unpackingInComprehension
    else if isDictionary then
      comprehensionOr (self (.comprehension start first)) start .dictMaker
        (self (.braceElement .dictionary)) first
    else
      comprehensionOr (self (.comprehension start first)) start .setMaker
        (self (.braceElement .set)) first
  | braceElement mode => do
    let kind ← peek
    if kind = .doubleStar ∧ mode ≠ .set then prefixed .doubleStar (self (.rule .expr))
    else if kind = .star ∧ mode ≠ .dictionary then self .starExpr
    else
      let start ← start
      let key ← self (.rule .test)
      if mode = .set ∨ (mode = .undecided ∧ (← peek) ≠ .colon) then return key
      else
        let colon ← expect .colon
        let value ← self (.rule .test)
        return .dictEntry (← spanFrom start) key colon value
  | comprehension start element => do
    let clause ← self .loop
    return .comprehension (← spanFrom start) element clause
  | loop => do
    let start ← start
    let async ← eat .kwAsync
    let forToken ← expect .kwFor
    let targets ← self .exprList
    let inToken ← expect .kwIn
    let source ← self (.rule .orTest)
    let next ← self .nextClause
    return .loop (← spanFrom start) async forToken targets inToken source next
  | guardClause => Grammar.guardClause (rules self) (self .nextClause)
  | nextClause =>
    optional fun kind =>
      if startsLoop kind then some (self .loop)
      else if kind == .kwIf then some (self .guardClause)
      else none
  | starExpr => Grammar.starExpr (rules self)
  | testOrStar => do
    if ← isAt .star then self .starExpr else self (.rule .test)
  | exprOrStar => do
    if ← isAt .star then self .starExpr else self (.rule .expr)
  | namedTest => Grammar.namedTest (rules self)
  | namedOrStar => do
    if ← isAt .star then self .starExpr else self .namedTest
  | typeElement => starredTest (rules self) (self (.rule .test))
  | testList => Grammar.testList (rules self)
  | testOrStarList => commaList .testList TokenKind.startsExpression (self .testOrStar)
  | exprList => commaList .exprList TokenKind.startsExpression (self .exprOrStar)
  | typeList => commaList .typeList TokenKind.startsExpression (self .typeElement)
  | argument =>
    starredTest (rules self) do
      let start ← start
      let name ← self .namedTest
      if ← isAt .equal then
        if name.name?.isSome then
          let equal ← bump
          let value ← self (.rule .test)
          return .argument (← spanFrom start) name equal value
        else fail .unnamedArgument
      else return name
  | argList => do
    let start ← start
    let first ← self .argument
    comprehensionOr (self (.comprehension start first)) start .argList (self .argument) first
  | optionalTest => Grammar.optionalTest (rules self)
  | sliceStep => do
    let colon ← bump
    return .mk colon (← self .optionalTest)
  | sliceFrom start lower => do
    let colon ← bump
    let upper ← self .optionalTest
    let step ← optional (.onKind .colon (self .sliceStep))
    return .slice (← spanFrom start) lower colon upper step
  | subscript => do
    let start ← start
    if ← isAt .colon then self (.sliceFrom start none)
    else
      let lower ← self (.rule .test)
      if ← isAt .colon then self (.sliceFrom start (some lower)) else return lower
  | subscriptList => commaList .subscriptList startsSubscript (self .subscript)
  | yieldExpr => do
    let start ← start
    let keyword ← expect .kwYield
    match ← eat .kwFrom with
    | some fromToken =>
      let value ← self (.rule .test)
      return .yieldFrom (← spanFrom start) keyword fromToken value
    | none =>
      let value ← optional (.startedBy TokenKind.startsExpression (self .testOrStarList))
      return .yield (← spanFrom start) keyword value
  | typeHint => Grammar.typeHint (rules self)
  | declarator typed => do
    let start ← start
    let name ← expect .name
    let hint ← optional (.startedBy (fun kind => typed && kind == .colon) (self .typeHint))
    return .mk (← spanFrom start) name hint
  | variadicParam typed => do
    let start ← start
    let star ← bump
    let declarator : Parser Declarator := self (.declarator typed)
    match ← optional (.onKind .name declarator) with
    | some name => return .variadic (← spanFrom start) star name
    | none => return .keywordOnly (← spanFrom start) star
  | param typed => do
    match ← peek with
    | .star => self (.variadicParam typed)
    | .doubleStar =>
      let start ← start
      let op ← bump
      let name ← self (.declarator typed)
      return .keywordVariadic (← spanFrom start) op name
    | .slash => return .positionalOnly (← bump)
    | .name =>
      let start ← start
      let name ← self (.declarator typed)
      match ← eat .equal with
      | some assign =>
        let value ← self (.rule .test)
        return .withDefault (← spanFrom start) name assign value
      | none => return .single name
    | _ => fail .expectedParameter
  | params typed closer => do
    let start ← start
    let first ← self (.param typed)
    let (items, trailing) ←
      separatedFrom .comma (moreParams closer) (self (.param typed)) first
    return .mk (← spanFrom start) items trailing

end Code

/-! ## The code over the functions themselves -/

theorem orTest_grammarRules : Grammar.orTest grammarRules = grammarRules .orTest :=
  (recursion_rules.eq .orTest).symm

theorem expr_grammarRules : Grammar.expr grammarRules = grammarRules .expr :=
  (recursion_rules.eq .expr).symm

theorem notTest_grammarRules : Grammar.notTest grammarRules = grammarRules .notTest :=
  (recursion_rules.eq .notTest).symm

theorem factor_grammarRules : factor grammarRules = grammarRules .factor :=
  (recursion_rules.eq .factor).symm

theorem run_rule (r : Rule) : run (.rule r) = ruleCode run r := by
  refine (recursion_rules.eq r).trans ?_
  cases r with
  | test =>
    show Grammar.test grammarRules = _
    unfold Grammar.test
    rw [orTest_grammarRules]
    rfl
  | testNoConditional =>
    show Grammar.testNoConditional grammarRules = _
    unfold Grammar.testNoConditional
    rw [orTest_grammarRules]
    rfl
  | orTest => rfl
  | expr => rfl
  | notTest => rfl
  | factor => rfl

theorem run_eq (f : ExprFn) : run f = code run f := by
  cases f with
  | rule r => exact run_rule r
  | andTest => exact congrArg (leftFold .and) notTest_grammarRules
  | comparison => exact congrArg comparisons expr_grammarRules
  | term => exact congrArg (leftFold .term) factor_grammarRules
  | nextClause => exact (recursion_clauses descends_grammarRules).eq ()
  | _ => rfl

/-! ## What a function depends on -/

theorem same_comprehensionOr {b start : Nat} {comprehension comprehension' : Parser Expr}
    {element element' : Parser Expr} (kind : SequenceKind)
    (hcomprehension : SameBelow b comprehension comprehension')
    (helement : SameBelow b element element') (first : Expr) :
    SameBelow b (comprehensionOr comprehension start kind element first)
      (comprehensionOr comprehension' start kind element' first) :=
  .peek fun _ => .ite hcomprehension (same_commaListFrom _ _ helement first)

section Same

variable {b : Nat} {self self' : Family Result}

theorem same_ruleCode (r : Rule) (h : SameUnder rank b (rank (.rule r)) self self') :
    SameBelow (b + 1) (ruleCode self r) (ruleCode self' r) := by
  cases r with
  | test =>
    refine .isAt fun _ => .ite (h.here (.lambda .test) rfl) (.start fun start => ?_)
    refine (h.here (.rule .orTest) rfl).bind fun body => .eat (fun ifToken => ?_) .pure
    refine (h.behind (.rule .orTest)).bind fun condition => ?_
    exact .pastExpect fun elseToken => (h.behind (.rule .test)).bind fun alternative => .close
  | testNoConditional =>
    exact .isAt fun _ =>
      .ite (h.here (.lambda .testNoConditional) rfl) (h.here (.rule .orTest) rfl)
  | orTest => exact same_leftFold .or (h.here .andTest rfl)
  | notTest =>
    exact .isAt fun _ =>
      .ite (same_prefixed _ (h.behind (.rule .notTest))) (h.here .comparison rfl)
  | expr => exact same_leftFold .bitOr (h.here .xorExpr rfl)
  | factor =>
    refine .peek fun kind => ?_
    split
    · exact same_prefixed _ (h.behind (.rule .factor))
    · exact h.here .power rfl

/-- The ranks of the rules end at fifteen. -/
theorem rules_here {r : Nat} (h : SameUnder rank b r self self') (hr : 15 < r)
    (rule : Rule) : SameBelow (b + 1) (rules self rule) (rules self' rule) := by
  refine h.here (.rule rule) (Nat.blt_eq.mpr (Nat.lt_of_le_of_lt ?_ hr))
  cases rule <;> decide

theorem rules_behind {r : Nat} (h : SameUnder rank b r self self') (rule : Rule) :
    SameBelow b (rules self rule) (rules self' rule) :=
  h.behind (.rule rule)

theorem same_braceDisplay (h : ∀ f, SameBelow b (self f) (self' f)) :
    SameBelow (b + 1) (code self .braceDisplay) (code self' .braceDisplay) := by
  refine .start fun start => .bump fun opener => ?_
  refine .pastEat fun closer => ?_
  cases closer with
  | some closer => exact .close
  | none =>
    refine .start fun bodyStart => (h (.braceElement _)).bind fun first => ?_
    refine (h (.braceBody _ _ _)).bind fun body => ?_
    exact .pastExpect fun closer => .close

theorem same_braceElement (mode : BraceMode)
    (h : SameUnder rank b (rank (.braceElement mode)) self self') :
    SameBelow (b + 1) (code self (.braceElement mode)) (code self' (.braceElement mode)) := by
  refine .peek fun kind => .ite ?_ (.ite (h.here .starExpr rfl) (.start fun start => ?_))
  · exact same_prefixed .doubleStar (h.behind (.rule .expr))
  · refine (h.here (.rule .test) rfl).bind fun key => .peek fun _ => .ite .pure (.expect ?_)
    exact fun colon => (h.behind (.rule .test)).bind fun value => .close

theorem same_loop (h : ∀ f, SameBelow b (self f) (self' f)) :
    SameBelow (b + 1) (code self .loop) (code self' .loop) := by
  refine .start fun start => .pastEat fun async => ?_
  refine .expect fun forToken => (h .exprList).bind fun targets => ?_
  refine .pastExpect fun inToken => ?_
  exact (h (.rule .orTest)).bind fun source => (h .nextClause).bind fun next => .close

theorem same_yieldExpr (h : ∀ f, SameBelow b (self f) (self' f)) :
    SameBelow (b + 1) (code self .yieldExpr) (code self' .yieldExpr) := by
  refine .start fun start => .expect fun keyword => ?_
  refine .pastEat fun fromToken => ?_
  cases fromToken with
  | some fromToken => exact (h (.rule .test)).bind fun _ => .close
  | none =>
    exact (SameBelow.optional (rel_startedBy _ (h .testOrStarList))).bind fun _ => .close

theorem same_variadicParam (typed : Bool) (h : ∀ f, SameBelow b (self f) (self' f)) :
    SameBelow (b + 1) (code self (.variadicParam typed)) (code self' (.variadicParam typed)) := by
  refine .start fun start => .bump fun star => ?_
  refine (SameBelow.optional (rel_startedBy _ (h (.declarator typed)))).bind fun name => ?_
  cases name with
  | some name => exact .close
  | none => exact .close

theorem same_param (typed : Bool) (h : SameUnder rank b (rank (.param typed)) self self') :
    SameBelow (b + 1) (code self (.param typed)) (code self' (.param typed)) := by
  refine .peek fun kind => ?_
  split
  · exact h.here (.variadicParam typed) rfl
  · exact .start fun start => .bump fun op =>
      (h.behind (.declarator typed)).bind fun name => .close
  · exact .bump fun slash => .pure
  · refine .start fun start => (h.here (.declarator typed) rfl).bind fun name => ?_
    exact .eat (fun assign => (h.behind (.rule .test)).bind fun value => .close) .pure
  · exact .fail

theorem same_appliedAtom (h : SameUnder rank b (rank .appliedAtom) self self') :
    SameBelow (b + 1) (code self .appliedAtom) (code self' .appliedAtom) := by
  refine .start fun start => .pastEat fun await => ?_
  refine (h.here .atom rfl).bind fun atom => (SameBelow.many fun kind => ?_).bind fun trailers =>
    .ite .pure .close
  split
  · exact .some (h.here .member rfl)
  · exact .some (h.here .call rfl)
  · exact .some (h.here .index rfl)
  · exact .none

theorem same_atom (h : SameUnder rank b (rank .atom) self self') :
    SameBelow (b + 1) (code self .atom) (code self' .atom) := by
  refine .peek fun kind => ?_
  split
  · exact same_display _ _ (h.behind .parenBody)
  · exact same_display _ _ (h.behind .testListComp)
  · exact h.here .braceDisplay rfl
  · exact h.here .stringLiterals rfl
  · split
    · exact .bump fun token => .pure
    · exact .fail

/-- What a function gives depends on functions of lower ranks, and on all of them where there are
fewer tokens left. -/
theorem same_code (f : ExprFn) (h : SameUnder rank b (rank f) self self') :
    SameBelow (b + 1) (code self f) (code self' f) := by
  cases f with
  | rule r => exact same_ruleCode r h
  | lambda r =>
    refine .start fun start => .bump fun keyword => ?_
    refine (SameBelow.optional (rel_startedBy _ (h.behind (.params _ _)))).bind fun params => ?_
    exact .pastExpect fun colon => (h.behind (.rule r)).bind fun body => .close
  | andTest => exact same_leftFold .and (h.here (.rule .notTest) rfl)
  | comparison => exact same_comparisons (h.here (.rule .expr) rfl)
  | xorExpr => exact same_leftFold .bitXor (h.here .andExpr rfl)
  | andExpr => exact same_leftFold .bitAnd (h.here .shiftExpr rfl)
  | shiftExpr => exact same_leftFold .shift (h.here .arithExpr rfl)
  | arithExpr => exact same_leftFold .arith (h.here .term rfl)
  | term => exact same_leftFold .term (h.here (.rule .factor) rfl)
  | power =>
    exact .start fun _ => (h.here .appliedAtom rfl).bind fun _ =>
      .eat (fun _ => (h.behind (.rule .factor)).bind fun _ => .close) .pure
  | appliedAtom => exact same_appliedAtom h
  | atom => exact same_atom h
  | stringLiterals => exact .refl advances_stringLiterals.descends
  | member => exact .refl yields_member.descends
  | call =>
    exact .start fun _ => (same_bracketed _ (h.behind .argList)).bind fun _ => .close
  | index =>
    exact .start fun _ => (same_bracketed _ (h.behind .subscriptList)).bind fun _ => .close
  | parenBody => exact .isAt fun _ => .ite (h.here .yieldExpr rfl) (h.here .testListComp rfl)
  | testListComp =>
    exact .start fun start => (h.here .namedOrStar rfl).bind fun first =>
      same_comprehensionOr _ (h.here (.comprehension start first) rfl)
        (h.here .namedOrStar rfl) first
  | braceDisplay => exact same_braceDisplay h.behind
  | braceBody start first isDictionary =>
    have hcomprehension := h.here (.comprehension start first) rfl
    exact .peek fun _ => .ite .fail (.ite
      (same_comprehensionOr _ hcomprehension (h.here (.braceElement _) rfl) first)
      (same_comprehensionOr _ hcomprehension (h.here (.braceElement _) rfl) first))
  | braceElement mode => exact same_braceElement mode h
  | comprehension start element => exact (h.here .loop rfl).bind fun _ => .close
  | loop => exact same_loop h.behind
  | guardClause => exact same_guardClause (rules_behind h) (h.behind .nextClause)
  | nextClause =>
    refine .optional fun kind => ?_
    split
    · exact .some (h.here .loop rfl)
    · split
      · exact .some (h.here .guardClause rfl)
      · exact .none
  | starExpr => exact same_starExpr (rules_behind h)
  | testOrStar => exact .isAt fun _ => .ite (h.here .starExpr rfl) (h.here (.rule .test) rfl)
  | exprOrStar => exact .isAt fun _ => .ite (h.here .starExpr rfl) (h.here (.rule .expr) rfl)
  | namedTest => exact same_namedTest (rules_here h (by decide))
  | namedOrStar => exact .isAt fun _ => .ite (h.here .starExpr rfl) (h.here .namedTest rfl)
  | typeElement => exact same_starredTest (rules_here h (by decide)) (h.here (.rule .test) rfl)
  | testList => exact same_testList (rules_here h (by decide))
  | testOrStarList => exact same_commaList _ _ (h.here .testOrStar rfl)
  | exprList => exact same_commaList _ _ (h.here .exprOrStar rfl)
  | typeList => exact same_commaList _ _ (h.here .typeElement rfl)
  | argument =>
    refine same_starredTest (rules_here h (by decide)) (.start fun start => ?_)
    refine (h.here .namedTest rfl).bind fun name => .isAt fun _ => .ite (.ite ?_ .fail) .pure
    exact .bump fun _ => (h.behind (.rule .test)).bind fun _ => .close
  | argList =>
    exact .start fun start => (h.here .argument rfl).bind fun first =>
      same_comprehensionOr _ (h.here (.comprehension start first) rfl) (h.here .argument rfl) first
  | optionalTest => exact same_optionalTest (rules_here h (by decide))
  | sliceStep => exact .bump fun _ => (h.behind .optionalTest).bind fun _ => .pure
  | sliceFrom start lower =>
    exact .bump fun _ => (h.behind .optionalTest).bind fun _ =>
      (SameBelow.optional (rel_startedBy _ (h.behind .sliceStep))).bind fun _ => .close
  | subscript =>
    exact .start fun start => .isAt fun _ => .ite (h.here (.sliceFrom start none) rfl) <|
      (h.here (.rule .test) rfl).bind fun lower => .isAt fun _ =>
        .ite (h.here (.sliceFrom start (some lower)) rfl) .pure
  | subscriptList => exact same_commaList _ _ (h.here .subscript rfl)
  | yieldExpr => exact same_yieldExpr h.behind
  | typeHint => exact same_typeHint (rules_behind h)
  | declarator typed =>
    exact .start fun _ => .expect fun _ =>
      (SameBelow.optional (rel_startedBy _ (h.behind .typeHint))).bind fun _ => .close
  | variadicParam typed => exact same_variadicParam typed h.behind
  | param typed => exact same_param typed h
  | params typed closer =>
    exact .start fun _ => (h.here (.param typed) rfl).bind fun first =>
      (SameBelow.separatedFrom (peeks_moreParams closer) (h.here (.param typed) rfl) first).bind
        fun _ => .close

end Same

end ExprFn

end Verbatim.Grammar
