import Verbatim.Grammar.Operators
import Verbatim.Proofs.Tree.Shape

/-!
# The ladder of precedence

Expressions stand on levels, from conditionals and lambdas down to single atoms, and an
operator takes operands of its own level or of a tighter one. Which trees are on the ladder
is said here of trees alone, without a parser. Two facts about their tokens are what a
parser with one token of lookahead depends on: the first token of a tree tells the loosest
level that the tree can be of, and a tree of some level is at its end before any token that
goes on with a looser level only.
-/

namespace Verbatim

inductive Level where
  | test
  | fold (level : FoldLevel)
  | not | comparison | factor | power | applied | atom
deriving DecidableEq, Repr

namespace Level

def tighter : Level → Level
  | test => fold .or
  | fold .or => fold .and
  | fold .and => not
  | not => comparison
  | comparison => fold .bitOr
  | fold .bitOr => fold .bitXor
  | fold .bitXor => fold .bitAnd
  | fold .bitAnd => fold .shift
  | fold .shift => fold .arith
  | fold .arith => fold .term
  | fold .term => factor
  | factor => power
  | power => applied
  | applied | atom => atom

def rank : Level → Nat
  | test => 0
  | fold .or => 1
  | fold .and => 2
  | not => 3
  | comparison => 4
  | fold .bitOr => 5
  | fold .bitXor => 6
  | fold .bitAnd => 7
  | fold .shift => 8
  | fold .arith => 9
  | fold .term => 10
  | factor => 11
  | power => 12
  | applied => 13
  | atom => 14

def folds : Level → Bool
  | fold _ | comparison => true
  | _ => false

theorem rank_le_tighter (L : Level) : L.rank ≤ L.tighter.rank := by
  rcases L with _ | level | _ | _ | _ | _ | _ | _
  case fold => cases level <;> decide
  all_goals decide

theorem rank_lt_tighter {L : Level} (h : L ≠ atom) : L.rank < L.tighter.rank := by
  rcases L with _ | level | _ | _ | _ | _ | _ | _
  case fold => cases level <;> decide
  case atom => exact absurd rfl h
  all_goals decide

end Level

/-! ## Operators and levels -/

namespace Operation

def right : Operation → Expr
  | binary _ _ _ right => right
  | compound _ _ _ _ right => right

def faces : Operation → List Face
  | binary _ _ op right => op.face :: right.faces
  | compound _ _ first second right => first.face :: second.face :: right.faces

end Operation

inductive Level.Admits : Level → Operation → Prop
  | operator {level : FoldLevel} {span : Span} {kind : BinaryKind} {op : Token} {right : Expr}
      (h : level.operator? op.kind = some kind) : Admits (.fold level) (.binary span kind op right)
  | comparison {span : Span} {kind : BinaryKind} {op : Token} {right : Expr}
      (h : BinaryKind.comparison? op.kind = some kind) :
      Admits .comparison (.binary span kind op right)
  | same {span : Span} {op : Token} {right : Expr} (h : op.kind = .kwIs) :
      Admits .comparison (.binary span .isSame op right)
  | notIn {span : Span} {first second : Token} {right : Expr} (h : first.kind = .kwNot)
      (h' : second.kind = .kwIn) : Admits .comparison (.compound span .notIn first second right)
  | isNot {span : Span} {first second : Token} {right : Expr} (h : first.kind = .kwIs)
      (h' : second.kind = .kwNot) : Admits .comparison (.compound span .isNot first second right)

namespace TokenKind

/-- The level of the expressions that a token after an expression goes on with. -/
def continues? : TokenKind → Option Level
  | .kwIf => some .test
  | .kwOr => some (.fold .or)
  | .kwAnd => some (.fold .and)
  | .less | .lessEqual | .equalEqual | .notEqual | .lessGreater | .greater | .greaterEqual
  | .kwIn | .kwIs | .kwNot => some .comparison
  | .pipe => some (.fold .bitOr)
  | .caret => some (.fold .bitXor)
  | .ampersand => some (.fold .bitAnd)
  | .leftShift | .rightShift => some (.fold .shift)
  | .plus | .minus => some (.fold .arith)
  | .star | .atSign | .slash | .percent | .doubleSlash => some (.fold .term)
  | .doubleStar => some .power
  | .dot | .leftParen | .leftBracket => some .applied
  | _ => none

/-- The loosest level of the expressions on the ladder that a token can begin. -/
def begins? : TokenKind → Option Level
  | .kwLambda => some .test
  | .kwNot => some .not
  | .plus | .minus | .tilde => some .factor
  | .kwAwait => some .applied
  | .name | .number | .leftParen => some .atom
  | _ => none

end TokenKind

namespace Level

/-- An expression of the level is at its end before a token of this kind. -/
def Stops (L : Level) (kind : TokenKind) : Prop :=
  ∀ M, kind.continues? = some M → M.rank < L.rank

def Starts (L : Level) (kind : TokenKind) : Prop :=
  ∃ M, kind.begins? = some M ∧ L.rank ≤ M.rank

def StartsWith (L : Level) (faces : List Face) : Prop :=
  ∃ first rest, faces = first :: rest ∧ L.Starts first.kind

theorem Stops.tighter {L : Level} {kind : TokenKind} (h : L.Stops kind) :
    L.tighter.Stops kind := by
  intro M hM
  have hrank := L.rank_le_tighter
  have hM := h M hM
  omega

theorem StartsWith.of_rank_le {L M : Level} {faces : List Face} (h : M.StartsWith faces)
    (hrank : L.rank ≤ M.rank) : L.StartsWith faces := by
  obtain ⟨first, rest, rfl, N, hN, hle⟩ := h
  exact ⟨first, rest, rfl, N, hN, Nat.le_trans hrank hle⟩

theorem StartsWith.of_begins? {L : Level} {first : Face} {rest : List Face}
    (h : first.kind.begins? = some L) : L.StartsWith (first :: rest) :=
  ⟨first, rest, rfl, L, h, Nat.le_refl _⟩

theorem StartsWith.append {L : Level} {faces : List Face} (h : L.StartsWith faces)
    (more : List Face) : L.StartsWith (faces ++ more) := by
  obtain ⟨first, rest, rfl, hfirst⟩ := h
  exact ⟨first, rest ++ more, rfl, hfirst⟩

theorem eq_factor_of_rank {M : Level} (h : M.rank = factor.rank) : M = factor := by
  rcases M with _ | level | _ | _ | _ | _ | _ | _
  case factor => rfl
  case fold => cases level <;> cases h
  all_goals cases h

/-- No token goes on with a signed expression, so an exponent ends where a power does. -/
theorem Stops.factor_of_power {kind : TokenKind} (h : power.Stops kind) : factor.Stops kind := by
  intro M hM
  have hle : M.rank ≤ factor.rank := Nat.le_of_lt_succ (h M hM)
  apply Nat.lt_of_le_of_ne hle
  intro heq
  rw [eq_factor_of_rank heq] at hM
  revert hM
  cases kind <;> decide

theorem Stops.continues?_ne {L : Level} {kind : TokenKind} (h : L.Stops kind) :
    kind.continues? ≠ some L := by
  intro hL
  exact Nat.lt_irrefl _ (h L hL)

theorem Stops.kind_ne {L : Level} {kind kind' : TokenKind} (h : L.Stops kind)
    (h' : kind'.continues? = some L) : kind ≠ kind' := by
  rintro rfl
  exact h.continues?_ne h'

theorem stops_of_continues?_eq_none {kind : TokenKind} (h : kind.continues? = none) (L : Level) :
    L.Stops kind := by
  intro M hM
  rw [h] at hM
  cases hM

theorem stops_of_continues?_eq_some {kind : TokenKind} {L M : Level}
    (h : kind.continues? = some L) (hrank : L.rank < M.rank) : M.Stops kind := by
  intro N hN
  rw [h] at hN
  cases hN
  exact hrank

theorem not_starts {kind : TokenKind} {L M : Level} (h : kind.begins? = some M)
    (hrank : M.rank < L.rank) : ¬ L.Starts kind := by
  rintro ⟨N, hN, hle⟩
  rw [h] at hN
  cases hN
  omega

theorem not_starts_of_begins?_eq_none {kind : TokenKind} (h : kind.begins? = none) (L : Level) :
    ¬ L.Starts kind := by
  rintro ⟨M, hM, _⟩
  rw [h] at hM
  cases hM

end Level

theorem FoldLevel.continues?_of_operator? {level : FoldLevel} {kind : TokenKind}
    {made : BinaryKind} (h : level.operator? kind = some made) :
    kind.continues? = some (.fold level) := by
  unfold FoldLevel.operator? at h
  split at h <;> first | rfl | cases h

theorem BinaryKind.continues?_of_comparison? {kind : TokenKind} {made : BinaryKind}
    (h : BinaryKind.comparison? kind = some made) : kind.continues? = some .comparison := by
  unfold BinaryKind.comparison? at h
  split at h <;> first | rfl | cases h

theorem UnaryKind.begins?_of_sign? {kind : TokenKind} {made : UnaryKind}
    (h : UnaryKind.sign? kind = some made) : kind.begins? = some .factor := by
  unfold UnaryKind.sign? at h
  split at h <;> first | rfl | cases h

theorem Level.Admits.faces_eq {L : Level} {operation : Operation} (h : L.Admits operation) :
    ∃ first rest, operation.faces = first :: rest ∧ first.kind.continues? = some L := by
  cases h with
  | operator h => exact ⟨_, _, rfl, FoldLevel.continues?_of_operator? h⟩
  | comparison h => exact ⟨_, _, rfl, BinaryKind.continues?_of_comparison? h⟩
  | same h => exact ⟨_, _, rfl, by simp [h, TokenKind.continues?]⟩
  | notIn h _ => exact ⟨_, _, rfl, by simp [h, TokenKind.continues?]⟩
  | isNot h _ => exact ⟨_, _, rfl, by simp [h, TokenKind.continues?]⟩

theorem Level.Admits.folds {L : Level} {operation : Operation} (h : L.Admits operation) :
    L.folds = true := by
  cases h <;> rfl

theorem Level.Admits.ne_atom {L : Level} {operation : Operation} (h : L.Admits operation) :
    L ≠ .atom := by
  rintro rfl
  cases h

end Verbatim
