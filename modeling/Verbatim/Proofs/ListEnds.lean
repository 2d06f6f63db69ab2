import Verbatim.Proofs.Calls.Advances
import Verbatim.Proofs.Grammar.Starts

/-!
# Where lists end

After a comma another element of a list follows only if the next token can begin one, and so it
is with the bounds of a slice and the value of a `yield`. Which tokens these are is told by a table
of kinds. The parser of an element goes down through all the levels of the grammar before it
refuses a token. The two agree: a token that is not in the table is refused, and nothing that
would have parsed is left behind a comma.
-/

namespace Verbatim

namespace Parser

variable {α β : Type} {p q : Parser α} {s : Stream}

/-- The parser fails at the current token before it takes it. What comes after that token has no
part in the failure, not even an error of the scanner, which taking the token would meet. -/
def FailsHere (p : Parser α) (s : Stream) : Prop :=
  ∀ u : Stream, u.current = s.current →
    p u = .error (.syntactic ⟨.expectedAtom, s.current⟩)

namespace FailsHere

theorem bind (h : FailsHere p s) (f : α → Parser β) : FailsHere (p >>= f) s := by
  intro u hu
  show (p u >>= fun r => f r.1 r.2) = _
  rw [h u hu]
  rfl

theorem start {f : Nat → Parser α} (h : ∀ n, FailsHere (f n) s) :
    FailsHere (Parser.start >>= f) s :=
  fun u hu => h u.current.span.start u hu

theorem peek {f : TokenKind → Parser α} (h : FailsHere (f s.current.kind) s) :
    FailsHere (Parser.peek >>= f) s := by
  intro u hu
  show f u.current.kind u = _
  rw [hu]
  exact h u hu

theorem unlessAt {kind : TokenKind} (hkind : s.current.kind ≠ kind) (h : FailsHere q s) :
    FailsHere (do if ← isAt kind then p else q) s := by
  intro u hu
  show (if (u.current.kind == kind) = true then p else q) u = _
  rw [hu, if_neg (by simpa using hkind)]
  exact h u hu

theorem of_refuses (h : Refuses p) (hs : s.current.kind.startsTest = false) : FailsHere p s := by
  intro u hu
  rw [← hu] at hs ⊢
  exact h u hs

end FailsHere

end Parser

namespace TokenKind

theorem startsTest_eq_false {kind : TokenKind} (h : kind.startsExpression = false) :
    kind.startsTest = false := by
  rw [startsTest, h]
  rfl

theorem ne_of_startsExpression {kind current : TokenKind} (hkind : kind.startsExpression = true)
    (hcurrent : current.startsExpression = false) : current ≠ kind := by
  rintro rfl
  rw [hkind] at hcurrent
  cases hcurrent

end TokenKind

namespace Grammar

open Verbatim.Parser

/-! ## Elements -/

/-- The elements of the comma lists of the grammar, each with the sort of its list and the table of
the kinds before which a comma goes on with the list. -/
inductive ListElement : SequenceKind → (TokenKind → Bool) → Parser Expr → Prop
  | test : ListElement .testList TokenKind.startsExpression (grammarRules .test)
  | testOrStar : ListElement .testList TokenKind.startsExpression (testOrStar grammarRules)
  | exprOrStar : ListElement .exprList TokenKind.startsExpression (exprOrStar grammarRules)
  | namedOrStar : ListElement .testListComp TokenKind.startsExpression (namedOrStar grammarRules)
  | typeElement : ListElement .typeList TokenKind.startsExpression
      (starredTest grammarRules (grammarRules .test))
  | argument : ListElement .argList TokenKind.startsExpression (argument grammarRules)
  | dictElement : ListElement .dictMaker TokenKind.startsExpression
      (braceElement grammarRules .dictionary)
  | setElement : ListElement .setMaker TokenKind.startsExpression (braceElement grammarRules .set)
  | subscript : ListElement .subscriptList startsSubscript (subscript grammarRules)

/-- The optional values that a table of kinds decides about: the bounds and the step of a slice,
and what a `yield` gives. -/
inductive OptionalValue : (TokenKind → Bool) → Parser Expr → Prop
  | bound : OptionalValue TokenKind.startsExpression (grammarRules .test)
  | yielded : OptionalValue TokenKind.startsExpression (testOrStarList grammarRules)

section Refusal

variable {s : Stream}

theorem refuses_grammarRules_test : Refuses (grammarRules .test) :=
  fun s hs => refuses_rulesUpTo_test (s.upcoming.length + 1) s hs

theorem refuses_grammarRules_expr : Refuses (grammarRules .expr) :=
  fun s hs => refuses_expr (rulesUpTo s.upcoming.length) s hs

variable (hs : s.current.kind.startsExpression = false)

include hs

theorem test_failsHere : FailsHere (grammarRules .test) s :=
  .of_refuses refuses_grammarRules_test (TokenKind.startsTest_eq_false hs)

theorem testOrStar_failsHere : FailsHere (testOrStar grammarRules) s :=
  .unlessAt (TokenKind.ne_of_startsExpression rfl hs) (test_failsHere hs)

theorem exprOrStar_failsHere : FailsHere (exprOrStar grammarRules) s :=
  .unlessAt (TokenKind.ne_of_startsExpression rfl hs)
    (.of_refuses refuses_grammarRules_expr (TokenKind.startsTest_eq_false hs))

theorem namedTest_failsHere : FailsHere (namedTest grammarRules) s :=
  .start fun _ => (test_failsHere hs).bind _

theorem namedOrStar_failsHere : FailsHere (namedOrStar grammarRules) s :=
  .unlessAt (TokenKind.ne_of_startsExpression rfl hs) (namedTest_failsHere hs)

theorem starredTest_failsHere {plain : Parser Expr} (h : FailsHere plain s) :
    FailsHere (starredTest grammarRules plain) s := by
  refine .peek ?_
  split
  · next hkind => exact absurd hkind (TokenKind.ne_of_startsExpression rfl hs)
  · next hkind => exact absurd hkind (TokenKind.ne_of_startsExpression rfl hs)
  · exact h

theorem argument_failsHere : FailsHere (argument grammarRules) s :=
  starredTest_failsHere hs (.start fun _ => (namedTest_failsHere hs).bind _)

theorem braceElement_failsHere (mode : BraceMode) :
    FailsHere (braceElement grammarRules mode) s := by
  refine .peek ?_
  rw [if_neg fun h => TokenKind.ne_of_startsExpression rfl hs h.1,
    if_neg fun h => TokenKind.ne_of_startsExpression rfl hs h.1]
  exact .start fun _ => (test_failsHere hs).bind _

theorem testOrStarList_failsHere : FailsHere (testOrStarList grammarRules) s :=
  .start fun _ => (testOrStar_failsHere hs).bind _

end Refusal

theorem subscript_failsHere {s : Stream} (hs : startsSubscript s.current.kind = false) :
    FailsHere (subscript grammarRules) s := by
  obtain ⟨hcolon, hstarts⟩ := Bool.or_eq_false_iff.mp hs
  refine .start fun _ => .unlessAt (by simpa using hcolon) ?_
  exact (test_failsHere hstarts).bind _

theorem ListElement.failsHere {kind : SequenceKind} {begins : TokenKind → Bool}
    {element : Parser Expr} (h : ListElement kind begins element) {s : Stream}
    (hs : begins s.current.kind = false) : FailsHere element s := by
  cases h with
  | test => exact test_failsHere hs
  | testOrStar => exact testOrStar_failsHere hs
  | exprOrStar => exact exprOrStar_failsHere hs
  | namedOrStar => exact namedOrStar_failsHere hs
  | typeElement => exact starredTest_failsHere hs (test_failsHere hs)
  | argument => exact argument_failsHere hs
  | dictElement => exact braceElement_failsHere hs .dictionary
  | setElement => exact braceElement_failsHere hs .set
  | subscript => exact subscript_failsHere hs

theorem OptionalValue.failsHere {begins : TokenKind → Bool} {part : Parser Expr}
    (h : OptionalValue begins part) {s : Stream} (hs : begins s.current.kind = false) :
    FailsHere part s := by
  cases h with
  | bound => exact test_failsHere hs
  | yielded => exact testOrStarList_failsHere hs

/-! ## Ends of lists -/

theorem ListElement.partParser {kind : SequenceKind} {begins : TokenKind → Bool}
    {element : Parser Expr} (h : ListElement kind begins element) : PartParser element := by
  cases h with
  | test => exact .rule .test
  | testOrStar => exact .testOrStar
  | exprOrStar => exact .exprOrStar
  | namedOrStar => exact .namedOrStar
  | typeElement => exact .starredTest (.rule .test)
  | argument => exact .argument
  | dictElement => exact .braceElement .dictionary
  | setElement => exact .braceElement .set
  | subscript => exact .subscript

/-- Where a list ends: before anything but a comma, or behind a comma where the parser of the
elements fails. -/
inductive ListEnd (element : Parser Expr) : Option Token → Stream → Prop
  | plain {u : Stream} (h : u.current.kind ≠ .comma) : ListEnd element none u
  | trailing {v u : Stream} {comma : Token} (hbump : bump v = .ok (comma, u))
      (hcomma : comma.kind = .comma) (h : FailsHere element u) : ListEnd element (some comma) u

/-- What a list with a given first element is, and where it ends. -/
inductive ListOf (kind : SequenceKind) (element : Parser Expr) (first : Expr) (s : Stream) :
    Expr → Stream → Prop
  | single (h : s.current.kind ≠ .comma) : ListOf kind element first s first s
  | sequence {span : Span} {items : Separated Expr} {trailing : Option Token} {u : Stream}
      (h : ListEnd element trailing u) :
      ListOf kind element first s (.sequence span kind items trailing) u

section Lists

variable {begins : TokenKind → Bool} {element : Parser Expr} {s u : Stream} {first : Expr}

/-- The induction is on the tokens that are left: the turns of the loop do not run out first. -/
theorem separatedFrom_ends {r : Separated Expr × Option Token} (hdescends : Descends element)
    (hfails : ∀ {u : Stream}, begins u.current.kind = false → FailsHere element u)
    (h : separatedFrom .comma (fun _ => return begins (← peek)) element first s = .ok (r, u)) :
    ListEnd element r.2 u ∧ ∀ e, r = (.one e, none) → e = first ∧ u = s := by
  induction hn : s.upcoming.length using Nat.strongRecOn generalizing s first r with
  | _ n ih =>
  have hrecursion : Recursion (separatedTurn .comma (fun _ => return begins (← peek)) element)
      (separatedFrom .comma (fun _ => return begins (← peek)) element) :=
    recursion_separatedFrom (fun _ => peeks_peek.bind fun _ => peeks_pure _) hdescends
  rw [hrecursion.eq first] at h
  obtain ⟨atComma, v, hpeek, h⟩ := bind_eq_ok.mp h
  cases hpeek
  split at h
  case isFalse hkind =>
    cases pure_eq_ok.mp h
    refine ⟨.plain (by simpa using hkind), ?_⟩
    rintro _ ⟨⟩
    exact ⟨rfl, rfl⟩
  obtain ⟨comma, v, hbump, h⟩ := bind_eq_ok.mp h
  obtain ⟨continues, w, hmore, h⟩ := bind_eq_ok.mp h
  cases hmore
  have hcomma : comma.kind = .comma := by
    rw [(bump_eq_ok hbump).1]
    exact beq_iff_eq.mp ‹_›
  split at h
  case isFalse hbegins =>
    cases pure_eq_ok.mp h
    refine ⟨.trailing hbump hcomma (hfails (by simpa using hbegins)), ?_⟩
    rintro _ ⟨⟩
  obtain ⟨next, w, hnext, h⟩ := bind_eq_ok.mp h
  obtain ⟨⟨items, trailing⟩, x, hrest, h⟩ := bind_eq_ok.mp h
  cases pure_eq_ok.mp h
  have hshorter := Nat.lt_of_le_of_lt (hdescends _ _ _ hnext) (advances_bump _ _ _ hbump)
  refine ⟨(ih _ (hn ▸ hshorter) hrest rfl).1, ?_⟩
  rintro _ ⟨⟩

theorem commaListFrom_ends {kind : SequenceKind} {start : Nat} {e : Expr}
    (hdescends : Descends element)
    (hfails : ∀ {u : Stream}, begins u.current.kind = false → FailsHere element u)
    (h : commaListFrom start kind begins element first s = .ok (e, u)) :
    ListOf kind element first s e u := by
  obtain ⟨r, v, hlist, h⟩ := bind_eq_ok.mp h
  obtain ⟨hend, hsingle⟩ := separatedFrom_ends hdescends hfails hlist
  split at h
  · cases pure_eq_ok.mp h
    cases hend with
    | plain hkind =>
      obtain ⟨rfl, rfl⟩ := hsingle _ rfl
      exact .single hkind
  · obtain ⟨span, w, hspan, h⟩ := bind_eq_ok.mp h
    cases hspan
    cases pure_eq_ok.mp h
    exact .sequence hend

end Lists

theorem optional_ends {α : Type} {begins : TokenKind → Bool} {part : Parser α} {s u : Stream}
    (h : optional (.startedBy begins part) s = .ok (none, u)) :
    u = s ∧ begins s.current.kind = false := by
  obtain ⟨kind, v, hpeek, h⟩ := bind_eq_ok.mp h
  cases hpeek
  cases hbegins : begins s.current.kind with
  | true =>
    have hchoice : Choice.startedBy begins part s.current.kind = some part := if_pos hbegins
    rw [hchoice] at h
    obtain ⟨value, v, -, h⟩ := bind_eq_ok.mp h
    cases pure_eq_ok.mp h
  | false =>
    have hchoice : Choice.startedBy begins part s.current.kind = none :=
      if_neg (Bool.eq_false_iff.mp hbegins)
    rw [hchoice] at h
    cases pure_eq_ok.mp h
    exact ⟨rfl, rfl⟩

/-- Where the table of an element has no entry for the current token, its parser fails at this
token. So a comma trails only where no element can stand behind it, a list without a trailing
comma is not left at a comma, and no value is left out that would have parsed. -/
theorem lists_end_where_nothing_starts :
    (∀ {kind : SequenceKind} {begins : TokenKind → Bool} {element : Parser Expr},
      ListElement kind begins element →
      (∀ s : Stream, begins s.current.kind = false → FailsHere element s) ∧
      ∀ {start : Nat} {first e : Expr} {s u : Stream},
        commaListFrom start kind begins element first s = .ok (e, u) →
        ListOf kind element first s e u) ∧
    (∀ {begins : TokenKind → Bool} {part : Parser Expr}, OptionalValue begins part →
      (∀ s : Stream, begins s.current.kind = false → FailsHere part s) ∧
      ∀ {s u : Stream}, optional (.startedBy begins part) s = .ok (none, u) →
        u = s ∧ FailsHere part s) ∧
    ∀ s : Stream, s.current.kind = .colon → FailsHere (grammarRules .test) s := by
  refine ⟨fun helement => ⟨fun s => helement.failsHere, fun h => ?_⟩,
    fun hpart => ⟨fun s => hpart.failsHere, fun h => ?_⟩, fun s hs => ?_⟩
  · exact commaListFrom_ends helement.partParser.advances.descends helement.failsHere h
  · obtain ⟨hu, hbegins⟩ := optional_ends h
    exact ⟨hu, hpart.failsHere hbegins⟩
  · exact test_failsHere (by rw [hs]; rfl)

/-- No subscript stands before the bracket of `x[a,]`, and no bound before that of `x[a:]` or
before the colon of `x[:]`. -/
theorem lists_end_before_bracket :
    let name : Expr := .leaf .name ⟨.name, .sized 2 1, [], ['a']⟩
    let comma : Token := ⟨.comma, .sized 3 1, [], [',']⟩
    let bracket : Token := ⟨.rightBracket, .sized 4 1, [], [']']⟩
    let last : Token := ⟨.endOfFile, .empty 5, [], []⟩
    let s : Stream := ⟨comma, [bracket, last], none, 3⟩
    let u : Stream := ⟨bracket, [last], none, 4⟩
    let colon : Token := ⟨.colon, .sized 2 1, [], [':']⟩
    let list : Expr := .sequence (.upTo 2 4) .subscriptList (.one name) (some comma)
    commaListFrom 2 .subscriptList startsSubscript (subscript grammarRules) name s
        = .ok (list, u) ∧
      ListOf .subscriptList (subscript grammarRules) name s list u ∧
      FailsHere (subscript grammarRules) u ∧ optionalTest grammarRules u = .ok (none, u) ∧
      FailsHere (grammarRules .test) u ∧
      FailsHere (grammarRules .test) ⟨colon, [bracket, last], none, 2⟩ := by
  intro name comma bracket last s u colon list
  obtain ⟨hlists, hvalues, hcolon⟩ := lists_end_where_nothing_starts
  obtain ⟨hrefuses, hends⟩ := hlists .subscript
  have hlist : commaListFrom 2 .subscriptList startsSubscript (subscript grammarRules) name s
      = .ok (list, u) := rfl
  have hbound : optionalTest grammarRules u = .ok (none, u) := rfl
  exact ⟨hlist, hends hlist, hrefuses u rfl, hbound, ((hvalues .bound).2 hbound).2,
    hcolon _ rfl⟩

end Grammar

end Verbatim
