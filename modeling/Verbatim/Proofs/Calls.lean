import Verbatim.Proofs.Calls.Advances
import Verbatim.Proofs.Calls.Family
import Verbatim.Proofs.Errors
import Verbatim.Proofs.Grammar.Root

/-!
# The parser comes to an end

The functions of the grammar call each other through three knots only: a statement holds
statements, a rule of the expression grammar holds rules, and a clause of a comprehension holds
the next clause. Between two such calls there are functions that are put together from others
without a cycle, so their number does not depend on the source: it is fourteen at most, as
`Grammar.Fn.calls_bounded` says of all functions of the grammar. Loops are the other way to go on
for long. Each turn of a loop takes a token, and so does the way from one call to the next, but
for the first calls from the root and from a statement. The turns and levels that the grammar
allows itself therefore never run out, and calls are nested as deep as there are tokens at most.
-/

namespace Verbatim

open Verbatim.Parser Verbatim.Grammar

/-! ## Loops -/

namespace Grammar

/-- The loops over parts. -/
inductive PartLoop : {α : Type} → Choice α → Prop
  | operators {operand : Parser Expr} (start : Nat) (level : FoldLevel) (h : PartParser operand) :
      PartLoop fun kind => (level.operator? kind).map (operation start · operand)
  | comparisons {operand : Parser Expr} (start : Nat) (h : PartParser operand) :
      PartLoop (comparisonChoice start operand)
  | trailers : PartLoop (trailerChoice grammarRules)
  | strings : PartLoop (.onKind .string bump)
  | dots : PartLoop (.startedBy isDots bump)
  | decorators : PartLoop (.onKind .atSign decorator)
  | elifs : PartLoop (.onKind .kwElif (elifClause statement))
  | handlers : PartLoop (.onKind .kwExcept (exceptClause statement))
  | block : PartLoop (.startedBy (fun kind => kind != .dedent && kind != .endOfFile) statement)
  | module : PartLoop (.startedBy (· != .endOfFile) statement)
  | newlines : PartLoop (.onKind .newline bump)

/-- The loops over items with separators between them. -/
inductive ItemLoop : {α : Type} → (α → Parser Bool) → Parser α → Prop
  | elements {element : Parser Expr} (continues : TokenKind → Bool) (h : PartParser element) :
      ItemLoop (fun _ => return continues (← peek)) element
  | params (typed : Bool) (closer : TokenKind) :
      ItemLoop (moreParams closer) (param grammarRules typed)
  | separated {α : Type} {item : Parser α} (h : PartParser item) :
      ItemLoop (fun _ => pure true) item
  | names : ItemLoop (fun _ => return (← peek) != .rightParen) importAsName
  | statements : ItemLoop (fun _ => return ! endsLine (← peek)) small

theorem advances_startedBy {α : Type} {begins : TokenKind → Bool} {p part : Parser α}
    (h : Advances p) (kind : TokenKind) (hpart : Choice.startedBy begins p kind = some part) :
    Advances part := by
  unfold Choice.startedBy at hpart
  split at hpart
  · cases hpart
    exact h
  · cases hpart

theorem PartLoop.advances {α : Type} {choice : Choice α} (h : PartLoop choice) :
    ∀ kind part, choice kind = some part → Advances part := by
  intro kind part hpart
  cases h with
  | operators start level h => exact advances_leftFoldChoice h.advances.descends level hpart
  | comparisons start h => exact advances_comparisonChoice h.advances.descends hpart
  | trailers => exact advances_of_piece (yields_trailerChoice yields_grammarRules kind part hpart)
  | strings => exact advances_startedBy advances_bump kind hpart
  | dots => exact advances_startedBy advances_bump kind hpart
  | decorators => exact advances_startedBy PartParser.decorator.advances kind hpart
  | elifs => exact advances_startedBy PartParser.elifClause.advances kind hpart
  | handlers => exact advances_startedBy PartParser.exceptClause.advances kind hpart
  | block => exact advances_startedBy PartParser.statement.advances kind hpart
  | module => exact advances_startedBy PartParser.statement.advances kind hpart
  | newlines => exact advances_startedBy advances_bump kind hpart

theorem ItemLoop.recursion {α : Type} {more : α → Parser Bool} {item : Parser α}
    (h : ItemLoop more item) (separator : TokenKind) :
    Recursion (separatedTurn separator more item) (separatedFrom separator more item) := by
  cases h with
  | elements continues h =>
    exact recursion_separatedFrom (fun _ => peeks_peek.bind fun _ => peeks_pure _)
      h.advances.descends
  | params typed closer =>
    exact recursion_separatedFrom (peeks_moreParams closer)
      (PartParser.param typed).advances.descends
  | separated h => exact recursion_separatedFrom (fun _ => peeks_pure true) h.advances.descends
  | names =>
    exact recursion_separatedFrom (fun _ => peeks_peek.bind fun _ => peeks_pure _)
      PartParser.importAsName.advances.descends
  | statements =>
    exact recursion_separatedFrom (fun _ => peeks_peek.bind fun _ => peeks_pure _)
      PartParser.small.advances.descends

/-! ## Entries into the expression grammar -/

/-- What statements and roots hold of the expression grammar. -/
inductive RuleParser : {α : Type} → (Rules → Parser α) → Prop
  | rule (rule : Rule) : RuleParser (· rule)
  | namedTest : RuleParser namedTest
  | testList : RuleParser testList
  | testOrStarList : RuleParser testOrStarList
  | exprList : RuleParser exprList
  | typeList : RuleParser typeList
  | yieldExpr : RuleParser yieldExpr
  | argList : RuleParser argList
  | params (typed : Bool) (closer : TokenKind) : RuleParser (params · typed closer)

theorem RuleParser.withRules_eq {α : Type} {parser : Rules → Parser α} (h : RuleParser parser) :
    withRules parser = parser grammarRules := by
  apply Grammar.withRules_eq
  intro b rules rules' hrules
  cases h with
  | rule rule => exact hrules rule
  | namedTest => exact same_namedTest hrules
  | testList => exact same_testList hrules
  | testOrStarList => exact same_testOrStarList hrules
  | exprList => exact same_exprList hrules
  | typeList => exact same_typeList hrules
  | yieldExpr => exact (same_yieldExpr hrules).pred
  | argList => exact same_argList hrules
  | params typed closer => exact (same_params hrules typed closer).pred

end Grammar

/-! ## Nested calls -/

theorem Stream.Drops.length_le {s u : Stream} {m : Nat} (h : s.Drops m u) :
    u.upcoming.length ≤ s.upcoming.length := by
  rw [h.length_eq]
  exact Nat.le_add_left _ _

inductive Callee where
  | root (entry : EntryPoint)
  | statement
  | rule (rule : Rule)
  | clause

structure Call where
  callee : Callee
  stream : Stream

namespace Call

/-- The second call is made inside the first one, with no third call between them. Where it is not
known what a function consults, any stream that is left of the caller's counts. -/
inductive Nests : Call → Call → Prop
  | root {s u : Stream} {m : Nat} (entry : EntryPoint) {callee : Callee}
      (hcallee : ∀ entry, callee ≠ .root entry) (hdrops : s.Drops m u) :
      Nests ⟨.root entry, s⟩ ⟨callee, u⟩
  | statement {s u : Stream}
      (h : Consults (fun part => statementBody (part ())) (fun _ => statement) s () u) :
      Nests ⟨.statement, s⟩ ⟨.statement, u⟩
  | inStatement {s u : Stream} {m : Nat} (rule : Rule) (hdrops : s.Drops m u) :
      Nests ⟨.statement, s⟩ ⟨.rule rule, u⟩
  | rule {s u : Stream} {outer inner : Rule}
      (h : Consults (fun rules => outer.body rules) grammarRules s inner u) :
      Nests ⟨.rule outer, s⟩ ⟨.rule inner, u⟩
  | comprehension {s v u : Stream} {m : Nat} (callee : Callee) (hdrops : s.Drops m v)
      (h : Consults (fun next => loop grammarRules (next ())) (fun _ => nextClause grammarRules)
        v () u) : Nests ⟨callee, s⟩ ⟨.clause, u⟩
  | clause {s u : Stream}
      (h : Consults (fun next => optional (clauseChoice grammarRules (next ())))
        (fun _ => nextClause grammarRules) s () u) : Nests ⟨.clause, s⟩ ⟨.clause, u⟩
  | inClause {s u : Stream} {rule : Rule}
      (h : Consults (fun rules => optional (clauseChoice rules (nextClause grammarRules)))
        grammarRules s rule u) : Nests ⟨.clause, s⟩ ⟨.rule rule, u⟩

/-- What stands behind a `not` is a call inside the call for the whole negation. -/
theorem nests_notTest {s u : Stream} {t : Token} (hkind : s.current.kind = .kwNot)
    (hbump : bump s = .ok (t, u)) : Nests ⟨.rule .notTest, s⟩ ⟨.rule .notTest, u⟩ := by
  refine .rule (.of_fails fun other e _ hother => ?_)
  show (if (s.current.kind == .kwNot) = true then prefixed .not (other .notTest)
    else comparisons (expr other)) s = .error e
  rw [if_pos (beq_iff_eq.mpr hkind)]
  show (bump s >>= fun r => other .notTest r.2 >>= fun _ => _) = .error e
  rw [hbump]
  show (other .notTest u >>= _) = .error e
  rw [hother]
  rfl

/-- How often calls can still be nested on the same stream. -/
def rank (call : Call) : Nat :=
  match call.callee with
  | .root _ => 2
  | .statement => 1
  | .rule _ | .clause => 0

def weight (call : Call) : Nat :=
  call.stream.upcoming.length + call.rank

theorem rank_le (call : Call) : call.rank ≤ 2 := by
  unfold rank
  split <;> decide

theorem rank_lt_root {entry : EntryPoint} {callee : Callee} (s u : Stream)
    (h : ∀ entry, callee ≠ .root entry) : rank ⟨callee, u⟩ < rank ⟨.root entry, s⟩ := by
  cases callee with
  | root entry => exact absurd rfl (h entry)
  | statement => exact Nat.lt_succ_self 1
  | rule rule => exact Nat.zero_lt_succ 1
  | clause => exact Nat.zero_lt_succ 1

/-- A call inside another one is on a shorter stream or comes later in the order of the callees. -/
theorem Nests.weight_lt {c d : Call} (h : Nests c d) : d.weight < c.weight := by
  have hnext : Descends (nextClause grammarRules) := descends_nextClause descends_grammarRules
  cases h with
  | root entry hcallee hdrops =>
    exact Nat.add_lt_add_of_le_of_lt hdrops.length_le (rank_lt_root _ _ hcallee)
  | statement h => exact Nat.add_lt_add_right (recursion_statement.shortens (i := ()) h) 1
  | inStatement rule hdrops =>
    exact Nat.add_lt_add_of_le_of_lt hdrops.length_le Nat.zero_lt_one
  | @rule s u outer inner h => exact recursion_rules.shortens (i := outer) h
  | @comprehension s v u m callee hdrops h =>
    have hlt := h.lt (fun _ => hnext) fun hsame =>
      same_loop (fun rule => .refl (descends_grammarRules rule)) (hsame ())
    exact Nat.lt_of_lt_of_le hlt (Nat.le_trans hdrops.length_le (Nat.le_add_right _ _))
  | clause h => exact (recursion_clauses descends_grammarRules).shortens (i := ()) h
  | inClause h =>
    exact h.lt descends_grammarRules fun hsame => same_clause hsame (.refl hnext)

/-- A chain of nested calls that leaves some tokens is no longer than the tokens that it takes
and the few calls without one. -/
theorem length_of_chain {n : Nat} {c : Call} {chain : List Call}
    (h : (c :: chain).IsChain Nests) (hn : ∀ d ∈ c :: chain, n ≤ d.stream.upcoming.length) :
    (c :: chain).length + n ≤ c.weight + 1 :=
  length_of_isChain h (fun _ _ => Nests.weight_lt) fun d hd =>
    Nat.le_trans (hn d hd) (Nat.le_add_right _ _)

end Call

/-! ## The end of a parse -/

/-- Every parse comes to its end, with a tree or with an error of the source. All functions of the
grammar that return a part of a tree take a token, and so do the turns of loops and all but a few
of the calls that are nested in each other. Loops and recursion are those without a bound on their
turns and levels, and calls are nested no deeper than the tokens of the source allow. -/
theorem grammar_progresses :
    (∀ (entry : EntryPoint) (options : Options) (t : Text),
      (∃ tree, entry.parse options t = .ok tree) ∨
      (∃ e, entry.parse options t = .error (.syntactic e) ∧
        e.token ∈ (TokenRun.ofText options t).tokens) ∨
      ∃ e, entry.parse options t = .error (.lexical e) ∧
        (TokenRun.ofText options t).failure = some e) ∧
    (∀ {options : Options} {t : Text} {span : Span} {pieces : List Outline},
      Parses options t span pieces → Outline.tokensOf pieces ≠ []) ∧
    (∀ {α : Type} {p : Parser α}, PartParser p → Advances p) ∧
    (∀ {α : Type} {choice : Choice α}, PartLoop choice →
      (∀ kind part, choice kind = some part → Advances part) ∧
        Recursion (fun rest (_ : Unit) => manyTurn choice (rest ())) fun _ => many choice) ∧
    (∀ {α : Type} {more : α → Parser Bool} {item : Parser α}, ItemLoop more item →
      ∀ separator,
        Recursion (separatedTurn separator more item) (separatedFrom separator more item)) ∧
    Recursion (fun part (_ : Unit) => statementBody (part ())) (fun _ => statement) ∧
    Recursion (fun rules rule => rule.body rules) grammarRules ∧
    Recursion (fun next (_ : Unit) => optional (clauseChoice grammarRules (next ())))
      (fun _ => nextClause grammarRules) ∧
    (∀ {α : Type} {parser : Rules → Parser α}, RuleParser parser →
      withRules parser = parser grammarRules) ∧
    (∀ (c : Call) (chain : List Call), (c :: chain).IsChain Call.Nests →
      (∀ d ∈ chain, d.stream.upcoming.length = c.stream.upcoming.length) →
      (c :: chain).length ≤ 3) ∧
    ∀ (entry : EntryPoint) (options : Options) (t : Text) (s : Stream) (chain : List Call),
      Stream.ofRun (TokenRun.ofText options t) = .ok s →
      (⟨.root entry, s⟩ :: chain).IsChain Call.Nests →
      (Call.mk (.root entry) s :: chain).length ≤
        (TokenRun.ofText options t).tokens.length + 2 := by
  refine ⟨?entries, ?roots, PartParser.advances, ?loops, ItemLoop.recursion, recursion_statement,
    recursion_rules, recursion_clauses descends_grammarRules, RuleParser.withRules_eq, ?level,
    ?depth⟩
  case entries =>
    intro entry options t
    have hreaches := TokenRun.parse_reaches entry options t
    generalize entry.parse options t = result at hreaches
    cases hreaches with
    | ok => exact .inl ⟨_, rfl⟩
    | syntactic _ ht => exact .inr (.inl ⟨_, rfl, List.mem_of_getElem? ht⟩)
    | lexical h => exact .inr (.inr ⟨_, rfl, h⟩)
  case roots =>
    intro options t span pieces h
    exact h.holds.spans.ne_nil
  case loops =>
    intro α choice h
    exact ⟨h.advances, recursion_many h.advances⟩
  case level =>
    intro c chain hchain hsame
    have hlength := Call.length_of_chain (n := c.stream.upcoming.length) hchain ?_
    · have hrank := c.rank_le
      rw [Call.weight] at hlength
      omega
    · intro d hd
      rcases List.mem_cons.mp hd with rfl | hd
      · exact Nat.le_refl _
      · exact Nat.le_of_eq (hsame d hd).symm
  case depth =>
    intro entry options t s chain hs hchain
    have hlength := Call.length_of_chain (n := 0) hchain fun _ _ => Nat.zero_le _
    rw [← (Stream.ofRun_eq_ok hs).1]
    exact hlength

theorem grammar_progresses_of_not :
    ∃ s u span pieces, Stream.ofRun (TokenRun.ofText {} "not not x".toList) = .ok s ∧
      [⟨.root .expression, s⟩, ⟨.rule .notTest, s⟩, ⟨.rule .notTest, u⟩].IsChain Call.Nests ∧
      [Call.mk (.root .expression) s, ⟨.rule .notTest, s⟩, ⟨.rule .notTest, u⟩].length ≤
        (TokenRun.ofText {} "not not x".toList).tokens.length + 2 ∧
      [Call.mk (.root .expression) s, ⟨.rule .notTest, s⟩].length ≤ 3 ∧
      Parses {} "not not x".toList span pieces ∧ Outline.tokensOf pieces ≠ [] ∧
      Advances (prefixed .not (grammarRules .notTest)) ∧
      (∀ kind part, trailerChoice grammarRules kind = some part → Advances part) ∧
      Recursion (separatedTurn .semicolon (fun _ => return ! endsLine (← peek)) small)
        (separatedFrom .semicolon (fun _ => return ! endsLine (← peek)) small) ∧
      aTestList = testList grammarRules := by
  obtain ⟨-, hroots, hparts, hloops, hitems, -, -, -, hrules, hlevel, hdepth⟩ :=
    grammar_progresses
  let first : Token := ⟨.kwNot, .sized 0 3, [], "not".toList⟩
  let upcoming : List Token :=
    [⟨.kwNot, .sized 4 3, [⟨.whitespace, .sized 3 1, [' ']⟩], "not".toList⟩,
      ⟨.name, .sized 8 1, [⟨.whitespace, .sized 7 1, [' ']⟩], ['x']⟩,
      ⟨.endOfFile, .empty 9, [], []⟩]
  let s : Stream := ⟨first, upcoming, none, 0⟩
  have hs : Stream.ofRun (TokenRun.ofText {} "not not x".toList) = .ok s := by
    have hrun : TokenRun.ofText {} "not not x".toList = ⟨first :: upcoming, none⟩ := by
      decide +kernel
    rw [hrun]
    rfl
  have hfirst : Call.Nests ⟨.root .expression, s⟩ ⟨.rule .notTest, s⟩ :=
    .root .expression (fun _ => by rintro ⟨⟩) (.refl s)
  have hsecond := Call.nests_notTest (s := s) rfl rfl
  have hchain := List.IsChain.cons_cons hfirst (.cons_cons hsecond (.singleton _))
  have hparses : (parseExpression {} "not not x".toList).toOption.isSome = true := by
    decide +kernel
  rcases htree : parseExpression {} "not not x".toList with error | tree
  · rw [htree] at hparses
    cases hparses
  have hparses := Parses.expression htree
  refine ⟨s, _, _, _, hs, hchain, hdepth .expression {} _ s _ hs hchain, ?_, hparses,
    hroots hparses, hparts (.prefixed .not (.rule .notTest)), (hloops .trailers).1,
    hitems .statements .semicolon, hrules .testList⟩
  exact hlevel _ _ (.cons_cons hfirst (.singleton _)) (by simp)

end Verbatim
