import Verbatim.Lexeme

/-!
# The longest operator

The reader of operators and delimiters decides character by character. What it reads is the
longest text in the table of fixed texts that the source goes on with, and it reads nothing only
where the source goes on with none of them.
-/

namespace Verbatim

namespace TokenKind

/-- A text begins with the text of an operator or delimiter. -/
structure Heads (kind : TokenKind) (w : Text) (t : Text) : Prop where
  mem : kind ∈ operators
  fixed : kind.fixedText?.map String.toList = some w
  isPrefix : w <+: t

/-- No operator or delimiter that the same text begins with is longer. -/
structure Longest (kind : TokenKind) (w : Text) (t : Text) : Prop extends Heads kind w t where
  longest : ∀ other v, Heads other v t → v.length ≤ w.length

theorem eq_of_fixedText?_eq : ∀ kind ∈ operators, ∀ other ∈ operators,
    kind.fixedText? = other.fixedText? → kind = other := by
  decide

variable {kind other : TokenKind} {v w t : Text}

theorem Heads.text_ne_nil (h : Heads kind w t) : w ≠ [] := by
  have hall : ∀ kind ∈ operators, kind.fixedText?.map String.toList ≠ some [] := by decide
  rintro rfl
  exact hall kind h.mem h.fixed

/-- The operator that a text begins with is known from its length. -/
theorem Heads.unique (h : Heads kind w t) (h' : Heads other v t) (hlength : w.length = v.length) :
    kind = other ∧ w = v := by
  have htext : w = v := by
    rw [List.prefix_iff_eq_take.mp h.isPrefix, List.prefix_iff_eq_take.mp h'.isPrefix, hlength]
  subst htext
  have hfixed : kind.fixedText? = other.fixedText? :=
    Option.map_injective (fun _ _ => String.toList_inj.mp) (h.fixed.trans h'.fixed.symm)
  exact ⟨eq_of_fixedText?_eq kind h.mem other h'.mem hfixed, rfl⟩

end TokenKind

namespace Lexeme

open TokenKind (Heads Longest)

variable {t w : Text} {kind : TokenKind} {n : Nat}

/-! ## What is read stands there -/

/-- An operator has been read from the beginning of a text, and all of it. -/
def Spells (t : Text) (kind : TokenKind) (n : Nat) : Prop :=
  ∃ w, Heads kind w t ∧ w.length = n

theorem spells_withEqual {longer shorter : TokenKind} (hlonger : longer ∈ TokenKind.operators)
    (hlong : longer.fixedText?.map String.toList = some (w ++ ['=']))
    (hshorter : shorter ∈ TokenKind.operators)
    (hshort : shorter.fixedText?.map String.toList = some w)
    (h : withEqual longer shorter w.length t = some (kind, n)) : Spells (w ++ t) kind n := by
  revert h
  fun_cases withEqual longer shorter w.length t with
  | case1 u =>
    rintro ⟨⟩
    exact ⟨w ++ ['='], ⟨hlonger, hlong, u, by simp⟩, by simp⟩
  | case2 =>
    rintro ⟨⟩
    exact ⟨w, ⟨hshorter, hshort, t, rfl⟩, rfl⟩

theorem spells_of_operator? (h : operator? t = some (kind, n)) : Spells t kind n := by
  revert h
  -- A leaf of the decision has its whole text in the pattern, or looks for one more equals sign.
  fun_cases operator? t
  all_goals
    first
    | rintro ⟨⟩; exact ⟨_, ⟨by decide, rfl, _, rfl⟩, rfl⟩
    | rintro ⟨⟩
    | exact spells_withEqual (w := [_]) (by decide) rfl (by decide) rfl
    | exact spells_withEqual (w := [_, _]) (by decide) rfl (by decide) rfl

theorem mem_operators_of_operator? (h : operator? t = some (kind, n)) :
    kind ∈ TokenKind.operators := by
  obtain ⟨w, hheads, -⟩ := spells_of_operator? h
  exact hheads.mem

theorem operator?_pos (h : operator? t = some (kind, n)) : 0 < n := by
  obtain ⟨w, hheads, hlength⟩ := spells_of_operator? h
  rw [← hlength]
  exact List.length_pos_iff.mpr hheads.text_ne_nil

theorem operator?_le (h : operator? t = some (kind, n)) : n ≤ t.length := by
  obtain ⟨w, hheads, hlength⟩ := spells_of_operator? h
  rw [← hlength]
  exact hheads.isPrefix.length_le

/-! ## As much as stands there is read -/

/-- Something of at least a given length has been read. -/
def Reaches (n : Nat) (reading : Option (TokenKind × Nat)) : Prop :=
  ∃ operator, reading = some operator ∧ n ≤ operator.2

theorem reaches_withEqual (longer shorter : TokenKind) {taken : Nat} (h : n ≤ taken) (t : Text) :
    Reaches n (withEqual longer shorter taken t) := by
  fun_cases withEqual longer shorter taken t with
  | case1 => exact ⟨_, rfl, Nat.le_succ_of_le h⟩
  | case2 => exact ⟨_, rfl, h⟩

theorem reaches_of_heads (h : Heads kind w t) : Reaches w.length (operator? t) := by
  obtain ⟨hmem, hfixed, u, rfl⟩ := h
  simp only [TokenKind.operators, List.mem_cons, List.not_mem_nil, or_false] at hmem
  rcases hmem with rfl | rfl | rfl | rfl | rfl | rfl | rfl | rfl | rfl | rfl | rfl | rfl | rfl |
    rfl | rfl | rfl | rfl | rfl | rfl | rfl | rfl | rfl | rfl | rfl | rfl | rfl | rfl | rfl | rfl |
    rfl | rfl | rfl | rfl | rfl | rfl | rfl | rfl | rfl | rfl | rfl | rfl | rfl | rfl | rfl | rfl |
    rfl | rfl | rfl
  all_goals cases hfixed
  -- The first characters of six operators are looked at together with what follows them.
  all_goals
    first
    | exact ⟨_, rfl, by decide⟩
    | exact reaches_withEqual _ _ (by decide) _
    | dsimp
      simp only [operator?]
      split
      all_goals
        first
        | exact ⟨_, rfl, by decide⟩
        | exact reaches_withEqual _ _ (by decide) _

/-! ## The reader and the table -/

theorem operator?_eq_some_iff :
    operator? t = some (kind, n) ↔ ∃ w, Longest kind w t ∧ w.length = n := by
  constructor
  · intro h
    obtain ⟨w, hheads, hlength⟩ := spells_of_operator? h
    have hlongest : ∀ other v, Heads other v t → v.length ≤ w.length := by
      intro other v hv
      obtain ⟨operator, hread, hle⟩ := reaches_of_heads hv
      cases h.symm.trans hread
      exact hlength ▸ hle
    exact ⟨w, ⟨hheads, hlongest⟩, hlength⟩
  · rintro ⟨w, hlongest, rfl⟩
    obtain ⟨⟨other, m⟩, hread, hle⟩ := reaches_of_heads hlongest.toHeads
    obtain ⟨v, hv, rfl⟩ := spells_of_operator? hread
    obtain ⟨rfl, rfl⟩ := hlongest.toHeads.unique hv
      (Nat.le_antisymm hle (hlongest.longest other v hv))
    exact hread

/-- What is read depends on nothing but which operators stand there. -/
theorem operator?_congr {u : Text} (h : ∀ kind w, Heads kind w t ↔ Heads kind w u) :
    operator? t = operator? u := by
  have hlongest (kind : TokenKind) (w : Text) : Longest kind w t ↔ Longest kind w u := by
    constructor
    · rintro ⟨hheads, hlongest⟩
      exact ⟨(h kind w).mp hheads, fun other v hv => hlongest other v ((h other v).mpr hv)⟩
    · rintro ⟨hheads, hlongest⟩
      exact ⟨(h kind w).mpr hheads, fun other v hv => hlongest other v ((h other v).mp hv)⟩
  apply Option.ext
  rintro ⟨kind, n⟩
  rw [operator?_eq_some_iff, operator?_eq_some_iff]
  simp only [hlongest]

theorem operator?_eq_none_iff : operator? t = none ↔ ∀ kind w, ¬ Heads kind w t := by
  constructor
  · intro h kind w hheads
    obtain ⟨operator, hread, -⟩ := reaches_of_heads hheads
    cases h.symm.trans hread
  · intro h
    cases hread : operator? t with
    | none => rfl
    | some operator =>
      obtain ⟨w, hheads, -⟩ := spells_of_operator? hread
      exact absurd hheads (h operator.1 w)

end Lexeme

end Verbatim
