import Verbatim.Grammar.Expression
import Verbatim.Proofs.Grammar.Combinators

/-!
# Where no expression starts

A test that does not find a token to start with fails at once, at that token. The levels of the
grammar hand it down one to the other until the atom, which refuses it.
-/

namespace Verbatim

namespace TokenKind

/-- Whether a token of this kind can begin a test. A star only begins an element of a list. -/
def startsTest (kind : TokenKind) : Bool :=
  kind.startsExpression && kind != .star && kind != .doubleStar

theorem ne_of_startsTest {kind current : TokenKind} (hkind : kind.startsTest = true)
    (hcurrent : current.startsTest = false) : current ≠ kind := by
  rintro rfl
  rw [hkind] at hcurrent
  cases hcurrent

end TokenKind

namespace Parser

variable {α β : Type}

/-- The parser fails where no test starts, before it takes a token. -/
def Refuses (p : Parser α) : Prop :=
  ∀ s : Stream, s.current.kind.startsTest = false →
    p s = .error (.syntactic ⟨.expectedAtom, s.current⟩)

namespace Refuses

theorem fail : Refuses (Parser.fail .expectedAtom : Parser α) :=
  fun _ _ => rfl

theorem bind {p : Parser β} (h : Refuses p) (f : β → Parser α) : Refuses (p >>= f) := by
  intro s hs
  show (p s >>= fun r => f r.1 r.2) = _
  rw [h s hs]
  rfl

theorem start {f : Nat → Parser α} (h : ∀ n, Refuses (f n)) : Refuses (Parser.start >>= f) :=
  fun s hs => h _ s hs

theorem peek {f : TokenKind → Parser α} (h : ∀ kind, kind.startsTest = false → Refuses (f kind)) :
    Refuses (Parser.peek >>= f) :=
  fun s hs => h _ hs s hs

theorem isAt {kind : TokenKind} (hkind : kind.startsTest = true) {p q : Parser α}
    (h : Refuses q) : Refuses (do if ← Parser.isAt kind then p else q) := by
  intro s hs
  have hne : s.current.kind ≠ kind := TokenKind.ne_of_startsTest hkind hs
  show (if (s.current.kind == kind) = true then p else q) s = _
  rw [if_neg (by simpa using hne)]
  exact h s hs

theorem eat {kind : TokenKind} (hkind : kind.startsTest = true) {f : Option Token → Parser α}
    (h : Refuses (f none)) : Refuses (Parser.eat kind >>= f) := by
  intro s hs
  have hne : s.current.kind ≠ kind := TokenKind.ne_of_startsTest hkind hs
  have heat : Parser.eat kind s = .ok (none, s) := by
    show (if (s.current.kind == kind) = true then _ else _ : Parser (Option Token)) s = _
    rw [if_neg (by simpa using hne)]
    rfl
  show (Parser.eat kind s >>= fun r => f r.1 r.2) = _
  rw [heat]
  exact h s hs

end Refuses

end Parser

namespace Grammar

open Verbatim.Parser

variable (rules : Rules)

theorem refuses_atom : Refuses (atom rules) := by
  refine .peek fun kind hkind => ?_
  split
  case h_5 =>
    split
    · next leaf hleaf =>
      have hstarts : kind.startsTest = true := by
        cases kind <;> first | rfl | cases hleaf
      rw [hstarts] at hkind
      cases hkind
    · exact .fail
  all_goals cases hkind

theorem refuses_power : Refuses (power rules) :=
  .start fun _ => .bind (.start fun _ => .eat rfl (.bind (refuses_atom rules) _)) _

theorem refuses_factor : Refuses (factor rules) := by
  refine .peek fun kind hkind => ?_
  split
  · next sign hsign =>
    have hstarts : kind.startsTest = true := by
      cases kind <;> first | rfl | cases hsign
    rw [hstarts] at hkind
    cases hkind
  · exact refuses_power rules

theorem refuses_leftFold (level : FoldLevel) {operand : Parser Expr} (h : Refuses operand) :
    Refuses (leftFold level operand) :=
  .start fun _ => .bind h _

theorem refuses_expr : Refuses (expr rules) := by
  unfold expr
  generalize FoldLevel.arithmetic = levels
  induction levels with
  | nil => exact refuses_factor rules
  | cons level levels ih => exact refuses_leftFold level ih

theorem refuses_notTest : Refuses (notTest rules) :=
  .isAt rfl (.start fun _ => .bind (refuses_expr rules) _)

theorem refuses_orTest : Refuses (orTest rules) :=
  refuses_leftFold .or (refuses_leftFold .and (refuses_notTest rules))

theorem refuses_test : Refuses (test rules) :=
  .isAt rfl (.start fun _ => .bind (refuses_orTest rules) _)

theorem refuses_rulesUpTo_test (n : Nat) : Refuses (rulesUpTo n .test) := by
  cases n with
  | zero => exact .fail
  | succ n => exact refuses_test (rulesUpTo n)

end Grammar

end Verbatim
