import Verbatim.Proofs.Derivation.Expression

/-!
# The level of an expression

An operator has a level of its own, and so has every expression that can be an operand. What
is derived from a level is an expression of this level or of a tighter one. Stars, names for
values and what stands only in certain places have no level, so they are no operands.
-/

namespace Verbatim

def BinaryKind.level? : BinaryKind → Option Level
  | .power => some .power
  | .mul | .matMul | .div | .modulo | .floorDiv => some (.fold .term)
  | .plus | .minus => some (.fold .arith)
  | .shiftLeft | .shiftRight => some (.fold .shift)
  | .bitAnd => some (.fold .bitAnd)
  | .bitXor => some (.fold .bitXor)
  | .bitOr => some (.fold .bitOr)
  | .less | .lessEqual | .equal | .notEqual | .greater | .greaterEqual | .isIn | .isSame =>
    some .comparison
  | .and => some (.fold .and)
  | .or => some (.fold .or)
  | .named => none

def UnaryKind.level? : UnaryKind → Option Level
  | .plus | .minus | .bitInvert => some .factor
  | .not => some .not
  | .star | .doubleStar => none

namespace Expr

theorem exists_name {e : Expr} (h : e.name?.isSome = true) :
    ∃ token, e = .leaf .name token := by
  unfold Expr.name? at h
  split at h
  · exact ⟨_, rfl⟩
  · cases h

def level? : Expr → Option Level
  | leaf _ _ | strings _ _ _ | display _ _ _ _ _ => some .atom
  | applied _ _ _ _ => some .applied
  | binary _ kind _ _ _ => kind.level?
  | compound _ _ _ _ _ _ => some .comparison
  | unary _ kind _ _ => kind.level?
  | lambda _ _ _ _ _ | conditional _ _ _ _ _ _ => some .test
  | _ => none

/-- The expression is of the level or of a tighter one. -/
def Within (L : Level) (e : Expr) : Prop :=
  ∃ M, e.level? = some M ∧ L.rank ≤ M.rank

def Tighter (L : Level) (e : Expr) : Prop :=
  ∃ M, e.level? = some M ∧ L.rank < M.rank

/-- The expression is a conditional, or a lambda of which the innermost body is one. -/
def EndsConditional : Expr → Prop
  | conditional _ _ _ _ _ _ => True
  | lambda _ _ _ _ body => body.EndsConditional
  | _ => False

variable {L M : Level} {e : Expr}

theorem Within.mono (h : e.Within M) (hrank : L.rank ≤ M.rank) : e.Within L := by
  obtain ⟨N, hN, hle⟩ := h
  exact ⟨N, hN, Nat.le_trans hrank hle⟩

theorem Within.tighter (h : e.Within L.tighter) (hL : L ≠ .atom) : e.Tighter L := by
  obtain ⟨N, hN, hle⟩ := h
  exact ⟨N, hN, Nat.lt_of_lt_of_le (Level.rank_lt_tighter hL) hle⟩

theorem within_of_level? (h : e.level? = some L) : e.Within L :=
  ⟨L, h, Nat.le_refl _⟩

/-- An expression that is tighter than a test is neither a conditional nor a lambda. -/
theorem Within.not_endsConditional (h : e.Within (.fold .or)) : ¬ e.EndsConditional := by
  obtain ⟨M, hM, hle⟩ := h
  cases e with
  | conditional =>
    cases hM
    cases hle
  | lambda =>
    cases hM
    cases hle
  | _ => exact id

theorem Within.isUnpacking_eq_false (h : e.Within L) : Grammar.isUnpacking e = false := by
  obtain ⟨M, hM, _⟩ := h
  unfold Grammar.isUnpacking
  split
  · cases hM
  · rfl

theorem Within.isDictEntry_eq_false (h : e.Within L) : Grammar.isDictEntry e = false := by
  obtain ⟨M, hM, _⟩ := h
  unfold Grammar.isDictEntry
  split
  · cases hM
  · rfl

end Expr

/-! ## Operators and their levels -/

theorem UnaryKind.level?_of_sign? {kind : TokenKind} {unary : UnaryKind}
    (h : UnaryKind.sign? kind = some unary) : unary.level? = some .factor := by
  unfold UnaryKind.sign? at h
  split at h <;> cases h <;> rfl

theorem FoldLevel.level?_of_operator? {level : FoldLevel} {kind : TokenKind} {made : BinaryKind}
    (h : level.operator? kind = some made) : made.level? = some (.fold level) := by
  unfold FoldLevel.operator? at h
  split at h <;> cases h <;> rfl

theorem BinaryKind.level?_of_comparison? {kind : TokenKind} {made : BinaryKind}
    (h : BinaryKind.comparison? kind = some made) : made.level? = some .comparison := by
  unfold BinaryKind.comparison? at h
  split at h <;> cases h <;> rfl

theorem Level.Admits.level?_eq {L : Level} {span : Span} {kind : BinaryKind} {op : Token}
    {right : Expr} (h : L.Admits (.binary span kind op right)) : kind.level? = some L := by
  cases h with
  | operator h => exact FoldLevel.level?_of_operator? h
  | comparison h => exact BinaryKind.level?_of_comparison? h
  | same h => rfl

theorem Level.Admits.level_eq {L : Level} {span : Span} {kind : CompoundKind}
    {first second : Token} {right : Expr} (h : L.Admits (.compound span kind first second right)) :
    L = .comparison := by
  cases h <;> rfl

/-! ## Derivations and levels -/

theorem Phrase.Includes.level_inv {L : Level} {P : Phrase} (h : Phrase.Includes (.level L) P) :
    P = .level L.tighter := by
  cases h
  rfl

theorem Derives.within {L : Level} {e : Expr} (h : Derives (.level L) (.expr e)) :
    e.Within L := by
  generalize hP : Phrase.level L = P at h
  generalize hn : Node.expr e = n at h
  induction h generalizing L with
  | unit hincludes _ ih =>
    subst hP
    cases hincludes.level_inv
    exact (ih rfl hn).mono L.rank_le_tighter
  | leaf | strings | display | applied | power | not | conditional =>
    cases hP
    cases hn
    exact Expr.within_of_level? rfl
  | sign hop =>
    cases hP
    cases hn
    exact Expr.within_of_level? (UnaryKind.level?_of_sign? hop)
  | binary hop =>
    cases hP
    cases hn
    exact Expr.within_of_level? hop.level?_eq
  | compound hop =>
    cases hP
    cases hn
    cases hop.level_eq
    exact Expr.within_of_level? rfl
  | lambda hlambda =>
    subst hP
    cases hn
    rcases hlambda with hlambda | hlambda
    · cases hlambda
      exact Expr.within_of_level? rfl
    · cases hlambda
  | _ => cases hP

/-- A lambda without a conditional inside hands the condition on to its body. -/
theorem Derives.not_endsConditional {e : Expr} (h : Derives .noConditional (.expr e)) :
    ¬ e.EndsConditional := by
  generalize hP : Phrase.noConditional = P at h
  generalize hn : Node.expr e = n at h
  induction h generalizing e with
  | unit hincludes hn' =>
    subst hP hn
    cases hincludes
    exact hn'.within.not_endsConditional
  | lambda hlambda _ _ _ _ _ ih =>
    cases hn
    rw [Expr.EndsConditional]
    exact ih hP rfl
  | _ => cases hP

end Verbatim
