import Verbatim.Proofs.Derivation.Level
import Verbatim.Proofs.Derivation.Root

/-!
# Precedence and associativity

Every operator in a parsed source has operands of the levels that the ladder allows. It is
a property of single nodes, which each production of the grammar has, so it holds
wherever an operator stands: in brackets, arguments, defaults, annotations and blocks.
-/

namespace Verbatim

/-- What the ladder asks of an expression: operators that fold to the left take a tighter
operand on their right, powers a tighter one on their left. -/
def Expr.Ranked : Expr → Prop
  | .binary _ .power left _ right => left.Within .applied ∧ right.Within .factor
  | .binary _ .named left _ right => (∃ token, left = .leaf .name token) ∧ right.Within .test
  | .binary _ kind left _ right => ∃ L, kind.level? = some L ∧ left.Within L ∧ right.Tighter L
  | .compound _ _ left _ _ right => left.Within .comparison ∧ right.Tighter .comparison
  | .unary _ kind _ operand => operand.Within (kind.level?.getD .test)
  | .lambda _ _ _ _ body => body.Within .test
  | .conditional _ body _ condition _ alternative =>
    body.Within (.fold .or) ∧ condition.Within (.fold .or) ∧ alternative.Within .test
  | _ => True

/-- What the ladder asks of the clauses of a comprehension. -/
def Clause.Ranked : Clause → Prop
  | .loop _ _ _ _ _ source _ => source.Within (.fold .or)
  | .guard _ _ condition _ => condition.Within .test ∧ ¬ condition.EndsConditional

def Node.Ranked : Node → Prop
  | .expr e => e.Ranked
  | .clause c => c.Ranked
  | _ => True

theorem Expr.Within.test {L : Level} {e : Expr} (h : e.Within L) : e.Within .test :=
  h.mono (Nat.zero_le _)

theorem Derives.within_test {P : Phrase} {e : Expr} (hP : P = .test ∨ P = .noConditional)
    (h : Derives P (.expr e)) : e.Within .test := by
  rcases hP with rfl | rfl
  · exact Derives.within h
  · cases h with
    | unit hincludes hn =>
      cases hincludes
      exact hn.within.test
    | lambda => exact Expr.within_of_level? rfl

theorem Level.Admits.ranked {L : Level} {span : Span} {kind : BinaryKind} {left right : Expr}
    {op : Token} (h : L.Admits (.binary span kind op right)) (hleft : left.Within L)
    (hright : right.Within L.tighter) : (Expr.binary span kind left op right).Ranked := by
  have hlevel := h.level?_eq
  have htighter := hright.tighter h.ne_atom
  cases kind with
  | power =>
    -- a power does not fold
    cases hlevel
    cases h
  | named => cases hlevel
  | _ => exact ⟨L, hlevel, hleft, htighter⟩

theorem Derives.ranked {P : Phrase} {n : Node} (h : Derives P n) : n.Ranked := by
  induction h with
  | unit _ _ ih => exact ih
  | power hop hbase hexponent => exact ⟨hbase.within, Derives.within hexponent⟩
  | sign hop hoperand =>
    rw [Node.Ranked, Expr.Ranked, UnaryKind.level?_of_sign? hop]
    exact Derives.within hoperand
  | binary hop hleft hright => exact hop.ranked hleft.within hright.within
  | compound hop hleft hright =>
    cases hop.level_eq
    exact ⟨hleft.within, hright.within.tighter (by simp)⟩
  | not hop hoperand => exact hoperand.within
  | lambda hP _ _ _ hbody => exact hbody.within_test hP
  | conditional _ _ hbody hcondition halternative =>
    exact ⟨Derives.within hbody, Derives.within hcondition, Derives.within halternative⟩
  | named _ hname _ hright => exact ⟨Expr.exists_name hname, Derives.within hright⟩
  | @starred _ kind _ _ _ hop hoperand =>
    cases kind with
    | star | doubleStar => exact hoperand.within.test
    | plus | minus | bitInvert | not => cases hop
  | loop _ _ _ _ hsource => exact Derives.within hsource
  | guard _ hcondition =>
    exact ⟨hcondition.within_test (.inr rfl), hcondition.not_endsConditional⟩
  | _ => exact trivial

theorem Node.Derived.ranked {n : Node} (h : n.Derived) : n.Ranked := by
  cases n with
  | expr e =>
    obtain ⟨P, h⟩ := h
    exact h.ranked
  | clause c =>
    obtain ⟨P, h⟩ := h
    exact h.ranked
  | _ => exact trivial

/-- Wherever a node stands in a parsed source, its operands are of the levels that the ladder
of precedence allows. -/
theorem precedence {options : Options} {t : Text} {span : Span} {pieces : List Outline}
    (h : Parses options t span pieces) :
    ∀ n, Event.enter n ∈ Outline.eventsOf pieces → n.Ranked := by
  intro n hn
  have hderived : n.Derived := h.every_derived _ hn
  exact hderived.ranked

/-- A signed exponent, a factor before a sum, a value with a name, and a lambda as the condition of
a comprehension. -/
theorem precedence_of_comprehension :
    ∃ span pieces,
      Parses {} "[(y := -2 ** -a * b + c) for a in b or c if lambda: not d < e]".toList span
          pieces ∧
        ∀ n, Event.enter n ∈ Outline.eventsOf pieces → n.Ranked := by
  have hparses : (parseExpression {}
      "[(y := -2 ** -a * b + c) for a in b or c if lambda: not d < e]".toList).toOption.isSome =
        true := by
    decide +kernel
  rcases htree : parseExpression {}
      "[(y := -2 ** -a * b + c) for a in b or c if lambda: not d < e]".toList with error | tree
  · rw [htree] at hparses
    cases hparses
  · exact ⟨_, _, .expression htree, precedence (.expression htree)⟩

end Verbatim
