import Verbatim.Proofs.Derivation.Compose
import Verbatim.Proofs.Grammar.Starts

/-!
# First tokens of derived expressions

The first token of an expression tells something about the phrase that it is derived from. A test
of any level begins with a token that starts tests. A star comes first only where elements of a
list stand, and a `yield` only where values do.
-/

namespace Verbatim

open Grammar (startsSubscript)
open Outline (tokensOf)

namespace Phrase

/-- The kinds with which the expressions of a phrase begin. -/
def begins : Phrase → TokenKind → Bool
  | level _ | noConditional | named => TokenKind.startsTest
  | starred kind _ => fun current => kind.mark? == some current
  | yield => (· == .kwYield)
  | list _ P | comprehensionOrList _ P => P.begins
  | inside .tuple | value => fun current => current == .kwYield || current.startsExpression
  | subscript => startsSubscript
  | _ => TokenKind.startsExpression

end Phrase

namespace TokenKind

variable {kind : TokenKind}

theorem startsExpression_of_startsTest (h : kind.startsTest = true) :
    kind.startsExpression = true := by
  simp only [startsTest, Bool.and_eq_true] at h
  exact h.1.1

theorem startsExpression_of_mark? {unary : UnaryKind} (h : unary.mark? = some kind) :
    kind.startsExpression = true := by
  cases unary <;> cases h <;> rfl

theorem startsTest_of_ofToken? {leaf : LeafKind} (h : LeafKind.ofToken? kind = some leaf) :
    kind.startsTest = true := by
  cases kind <;> first | rfl | cases h

theorem startsTest_of_sign? {unary : UnaryKind} (h : UnaryKind.sign? kind = some unary) :
    kind.startsTest = true := by
  cases kind <;> first | rfl | cases h

end TokenKind

theorem Phrase.Includes.begins {P Q : Phrase} (h : Q.Includes P) {kind : TokenKind}
    (hkind : P.begins kind = true) : Q.begins kind = true := by
  cases h with
  | testStar | exprStar | namedStar | typeStar | argumentStar | unpacking | elementStar =>
    exact TokenKind.startsExpression_of_mark? (beq_iff_eq.mp hkind)
  | testOrStar | exprOrStar | namedOrStar | typeElement | argument | element =>
    exact TokenKind.startsExpression_of_startsTest hkind
  | subscript | listValue =>
    exact Bool.or_eq_true_iff.mpr (.inr (TokenKind.startsExpression_of_startsTest hkind))
  | yielded | yieldValue => exact Bool.or_eq_true_iff.mpr (.inl hkind)
  | grouped | testValue => exact Bool.or_eq_true_iff.mpr (.inr hkind)
  | _ => exact hkind

namespace Outline

/-- The pieces begin with a token of one of some kinds. -/
def Begin (begins : TokenKind → Bool) (pieces : List Outline) : Prop :=
  ∃ t ts, tokensOf pieces = t :: ts ∧ begins t.kind = true

namespace Begin

variable {begins : TokenKind → Bool} {pieces children : List Outline}

theorem mono {others : TokenKind → Bool} (h : Begin begins pieces)
    (hbegins : ∀ kind, begins kind = true → others kind = true) : Begin others pieces := by
  obtain ⟨t, ts, htokens, ht⟩ := h
  exact ⟨t, ts, htokens, hbegins _ ht⟩

theorem node {n : Node} (h : Begin begins children) :
    Begin begins (.node n children :: pieces) := by
  obtain ⟨t, ts, htokens, ht⟩ := h
  exact ⟨t, ts ++ tokensOf pieces, by rw [tokensOf, tokens, htokens, List.cons_append], ht⟩

theorem token {t : Token} (h : begins t.kind = true) : Begin begins (.token t :: pieces) :=
  ⟨t, tokensOf pieces, rfl, h⟩

theorem word {t : Token} {kind : TokenKind} (ht : t.kind = kind) (h : begins kind = true) :
    Begin begins (.token t :: pieces) :=
  token (ht ▸ h)

theorem ne_nil (h : Begin begins pieces) : tokensOf pieces ≠ [] := by
  obtain ⟨t, ts, htokens, -⟩ := h
  rw [htokens]
  exact List.cons_ne_nil t ts

theorem node_iff {n : Node} (hne : tokensOf children ≠ []) :
    Begin begins (.node n children :: pieces) ↔ Begin begins children := by
  refine ⟨?_, node⟩
  rintro ⟨t, ts, htokens, ht⟩
  obtain ⟨u, us, hchildren⟩ := List.exists_cons_of_ne_nil hne
  rw [tokensOf, tokens, hchildren] at htokens
  cases htokens
  exact ⟨t, us, hchildren, ht⟩

end Begin

end Outline

open Outline (Begin)

theorem Derives.begin {P : Phrase} {e : Expr} (h : Derives P (.expr e)) :
    Begin P.begins e.pieces := by
  generalize hn : Node.expr e = n at h
  induction h generalizing e with
  | unit hincludes _ ih => exact (ih hn).mono fun _ => hincludes.begins
  | leaf h =>
    cases hn
    exact .token (TokenKind.startsTest_of_ofToken? h)
  | strings hfirst =>
    cases hn
    exact .word hfirst rfl
  | @display _ kind _ _ _ hopener =>
    cases hn
    refine .word hopener ?_
    cases kind <;> rfl
  | @applied _ await _ _ hawait _ _ _ ihatom =>
    cases hn
    cases await with
    | none => exact .node (ihatom rfl)
    | some t => exact .word (hawait t rfl) rfl
  | power _ _ _ ih | binary _ _ _ ih | compound _ _ _ ih | conditional _ _ _ _ _ ih
  | named _ _ _ _ ih =>
    cases hn
    exact .node (ih rfl)
  | dictEntry _ _ _ ih | argument _ _ _ _ ih =>
    cases hn
    exact .node ((ih rfl).mono fun _ => TokenKind.startsExpression_of_startsTest)
  | sign hop =>
    cases hn
    exact .token (TokenKind.startsTest_of_sign? hop)
  | not hop =>
    cases hn
    exact .word hop rfl
  | lambda hP hkeyword =>
    cases hn
    refine .word hkeyword ?_
    rcases hP with rfl | rfl <;> rfl
  | starred hop =>
    cases hn
    exact .token (beq_iff_eq.mpr hop)
  | yield hkeyword | yieldFrom hkeyword =>
    cases hn
    exact .word hkeyword rfl
  | comprehension _ _ _ _ ih =>
    cases hn
    exact .node (ih rfl)
  | @sequence _ _ _ items _ _ _ _ _ _ ih =>
    cases hn
    cases items with
    | one e => exact .node (ih e (by simp) rfl)
    | cons e t rest => exact .node (ih e (by simp) rfl)
  | @slice _ lower _ _ _ hcolon _ _ _ _ ihlower =>
    cases hn
    cases lower with
    | none => exact .word hcolon rfl
    | some e =>
      refine .node ((ihlower e rfl rfl).mono fun kind hkind => ?_)
      exact Bool.or_eq_true_iff.mpr (.inr (TokenKind.startsExpression_of_startsTest hkind))
  | _ => cases hn

end Verbatim
