import Verbatim.Proofs.Calls.Functions.Statement
import Verbatim.Proofs.Grammar.Root

/-!
# How deep calls are nested

The functions of the grammar stand in twenty-five ranks, and a function calls one that is not of
a lower rank only behind a token. So at most twenty-five calls are nested on one stream, and at
most twenty-five for each token of the source in all. Between two calls of the functions through
which the grammar comes back to itself there are never more than fourteen others.
-/

namespace Verbatim.Grammar

open Verbatim.Parser

namespace Fn

theorem rank_lt (f : Fn) : f.rank < 25 := by
  cases f with
  | expression f =>
    cases f with
    | rule r => cases r <;> decide
    | _ => exact Nat.blt_eq.mp rfl
  | _ => exact Nat.blt_eq.mp rfl

theorem layered : Layered 25 rank code run where
  rank_lt := rank_lt
  eq := run_eq
  same := same_code

/-! ## Between two knots -/

/-- The functions through which the grammar comes back to itself. -/
def isKnot : Fn → Bool
  | expression (.rule _) | expression .nextClause | statement => true
  | _ => false

/-- How many functions can still be called inside each other before the next knot. -/
def height : Fn → Nat
  | expression (.rule _) | expression .nextClause | statement => 14
  | asyncStatement => 13
  | ifStatement | whileStatement | forStatement _ _ | tryStatement => 12
  | elseClause | decorated => 11
  | blockClause | elifClause | exceptClause | withStatement _ _ | funcDef _ _ _
  | classDef _ _ => 10
  | body | expression .power => 9
  | line | expression .appliedAtom => 8
  | small | expression .atom => 7
  | expressionStatement | classArguments | expression .parenBody | expression .braceDisplay
  | expression .call => 6
  | annotatedAssignment _ _ | augmentedAssignment _ _ | assignment _ _
  | expression .testListComp | expression (.braceBody _ _ _) | expression .argList
  | expression .index | expression (.lambda _) => 5
  | assignedValue | returnStatement | importFromStatement | expression (.comprehension _ _)
  | expression .subscriptList | expression (.params _ _) | expression .xorExpr => 4
  | listValue | delStatement | importTargets | expression .yieldExpr | expression .loop
  | expression .subscript | expression (.param _) | expression .andExpr => 3
  | importStatement | bareNames | enclosedNames | root _ | expression .testOrStarList
  | expression .exprList | expression (.sliceFrom _ _) | expression (.variadicParam _)
  | expression .shiftExpr => 2
  | raiseStatement | dottedAsName | importAsName | decorator | caught | expression .testOrStar
  | expression .exprOrStar | expression .namedOrStar | expression .typeList
  | expression (.braceElement _) | expression .argument | expression .sliceStep
  | expression (.declarator _) | expression .arithExpr => 1
  | _ => 0

/-- All that a function calls is a knot or has fewer functions below it. -/
def reaches (f g : Fn) : Bool :=
  g.isKnot || g.height.blt f.height

/-- The family in which the functions that `f` does not reach fail. -/
def callees (f : Fn) (self : Family Result) : Family Result := fun g s =>
  match f.reaches g with
  | true => self g s
  | false => fail .expectedAtom s

theorem code_callees (f : Fn) (self : Family Result) : code self f = code (f.callees self) f := by
  cases f with
  | expression f =>
    cases f with
    | rule r => cases r <;> rfl
    | _ => rfl
  | root entry => cases entry <;> rfl
  | _ => rfl

theorem height_le (f : Fn) : f.height ≤ 14 := by
  cases f with
  | expression f => cases f <;> exact Nat.le_of_ble_eq_true rfl
  | _ => exact Nat.le_of_ble_eq_true rfl

theorem reaches_of_makes {c d : CallOf Fn} (h : Makes code run c d) :
    c.callee.reaches d.callee = true := by
  obtain ⟨other, hother, hne⟩ := h
  refine Classical.not_not.mp fun hnot => hne ?_
  have hsame : c.callee.callees other = c.callee.callees run := by
    funext g s
    unfold callees
    split
    · next hreaches =>
      refine hother g s ?_
      rintro ⟨⟩
      exact hnot hreaches
    · rfl
  rw [code_callees, hsame, ← code_callees]

/-- Calls without a knot come ever closer to the next one. -/
theorem length_le_height {c : CallOf Fn} {chain : List (CallOf Fn)}
    (hchain : (c :: chain).IsChain (Makes code run))
    (hknot : ∀ d ∈ chain, d.callee.isKnot = false) : chain.length ≤ c.callee.height := by
  induction chain generalizing c with
  | nil => exact Nat.zero_le _
  | cons d chain ih =>
    obtain ⟨hmakes, hchain⟩ := List.isChain_cons_cons.mp hchain
    have hreaches := reaches_of_makes hmakes
    rw [reaches, hknot d List.mem_cons_self, Bool.false_or] at hreaches
    have hrest := ih hchain fun e he => hknot e (List.mem_cons_of_mem d he)
    exact Nat.lt_of_le_of_lt hrest (Nat.blt_eq.mp hreaches)

/-! ## On one stream -/

/-- The functions from a module down to a literal. -/
def ladder : List Fn :=
  [.root .module, .statement, .line, .small, .expressionStatement, .assignedValue, .listValue] ++
    ([.testOrStarList, .testOrStar, .rule .test, .rule .orTest, .andTest, .rule .notTest,
      .comparison, .rule .expr, .xorExpr, .andExpr, .shiftExpr, .arithExpr, .term, .rule .factor,
      .power, .appliedAtom, .atom, .stringLiterals] : List ExprFn).map .expression

theorem isChain_ladder {s : Stream} (h : s.current.kind = .string) :
    (ladder.map (CallOf.mk · s)).IsChain (Makes code run) := by
  obtain ⟨⟨kind, span, trivia, text⟩, upcoming, failure, lastEnd⟩ := s
  obtain rfl : kind = .string := h
  -- from the module to the first test
  refine .cons_cons (.of_begins fun self => .start (.bind (.many rfl))) ?_
  refine .cons_cons (.of_begins fun self => .peek (.bind .refl)) ?_
  refine .cons_cons (.of_begins fun self => .start (.bind .refl)) ?_
  refine .cons_cons (.of_begins fun self => .peek .refl) ?_
  refine .cons_cons (.of_begins fun self => .start (.bind .refl)) ?_
  refine .cons_cons (.of_begins fun self => .isAt .refl) ?_
  refine .cons_cons (.of_begins fun self => .bind .refl) ?_
  refine .cons_cons (.of_begins fun self => .start (.bind .refl)) ?_
  refine .cons_cons (.of_begins fun self => .isAt .refl) ?_
  -- the levels of operators, each of which begins with its first operand
  refine .cons_cons (.of_begins fun self => .isAt (.start (.bind .refl))) ?_
  refine .cons_cons (.of_begins fun self => .start (.bind .refl)) ?_
  refine .cons_cons (.of_begins fun self => .start (.bind .refl)) ?_
  refine .cons_cons (.of_begins fun self => .isAt .refl) ?_
  refine .cons_cons (.of_begins fun self => .start (.bind .refl)) ?_
  refine .cons_cons (.of_begins fun self => .start (.bind .refl)) ?_
  refine .cons_cons (.of_begins fun self => .start (.bind .refl)) ?_
  refine .cons_cons (.of_begins fun self => .start (.bind .refl)) ?_
  refine .cons_cons (.of_begins fun self => .start (.bind .refl)) ?_
  refine .cons_cons (.of_begins fun self => .start (.bind .refl)) ?_
  refine .cons_cons (.of_begins fun self => .start (.bind .refl)) ?_
  -- a factor without a sign, down to its atom
  refine .cons_cons (.of_begins fun self => .peek .refl) ?_
  refine .cons_cons (.of_begins fun self => .start (.bind .refl)) ?_
  refine .cons_cons (.of_begins fun self => .start (.look rfl (.bind .refl))) ?_
  exact .cons_cons (.of_begins fun self => .peek .refl) (.singleton _)

/-! ## In a whole parse -/

/-- Calls are nested as deep as the tokens of the source allow. Between two knots there are at
most fourteen other functions, and without a token taken at most twenty-five calls are nested. So
a parse nests no more than twenty-five calls for each token, and with a limit on the depth that
leaves as many it gives the same, whatever a deeper call would fail with. -/
theorem calls_bounded :
    (∀ (c : CallOf Fn) (chain : List (CallOf Fn)), (c :: chain).IsChain (Makes code run) →
      (∀ d ∈ chain, d.callee.isKnot = false) → chain.length ≤ 14) ∧
    (∀ (c : CallOf Fn) (chain : List (CallOf Fn)), (c :: chain).IsChain (Makes code run) →
      (∀ d ∈ chain, d.stream.upcoming.length = c.stream.upcoming.length) →
      (c :: chain).length ≤ 25) ∧
    ∀ (entry : EntryPoint) (options : Options) (t : Text) (s : Stream),
      Stream.ofRun (TokenRun.ofText options t) = .ok s →
      (∀ chain : List (CallOf Fn), (⟨.root entry, s⟩ :: chain).IsChain (Makes code run) →
        (CallOf.mk (.root entry) s :: chain).length ≤
          25 * (TokenRun.ofText options t).tokens.length) ∧
      ∀ (e : ParseError) (n : Nat), 25 * (TokenRun.ofText options t).tokens.length ≤ n →
        limited code e n (.root entry) s = entry.root s := by
  refine ⟨fun c chain hchain hknot => ?_, fun c chain => layered.length_chain_le_of_same,
    fun entry options t s hs => ?_⟩
  · exact Nat.le_trans (length_le_height hchain hknot) (height_le _)
  · have htokens : (TokenRun.ofText options t).tokens.length = s.upcoming.length + 1 := by
      rw [← (Stream.ofRun_eq_ok hs).1]
      rfl
    rw [htokens]
    refine ⟨fun chain => layered.length_chain_le, fun e n hn => ?_⟩
    exact layered.limited_eq e ⟨.root entry, s⟩ (Nat.le_trans (layered.room_le _) hn)

/-- At a literal as many calls are nested on one stream as there are ranks. -/
theorem exists_chain_of_string {s : Stream} (h : s.current.kind = .string) :
    ∃ chain : List (CallOf Fn), (⟨.root .module, s⟩ :: chain).IsChain (Makes code run) ∧
      (∀ d ∈ chain, d.stream = s) ∧ (CallOf.mk (Fn.root .module) s :: chain).length = 25 := by
  refine ⟨_, isChain_ladder h, fun d hd => ?_, rfl⟩
  obtain ⟨f, -, rfl⟩ := List.mem_map.mp hd
  rfl

end Fn

end Verbatim.Grammar
