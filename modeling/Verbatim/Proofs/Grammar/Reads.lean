import Verbatim.Grammar.Stream
import Verbatim.Proofs.Tree.Pieces

/-!
# What a parser has read

A parser that succeeds has moved over some tokens, and the pieces of what it returns hold
these tokens and no others. In a spanned piece, moreover, each recorded span goes from the
first token inside to the last one. Both are carried along together: the rules below say
how the pieces that are read so far grow, one rule for each way to put parsers together,
and a parser of the grammar follows the rules in the order of its own steps.
-/

namespace Verbatim

namespace Outline

mutual

/-- Every span that is recorded inside goes from a first token to a last one, and a node has
a token with text. -/
def Spanned : Outline → Prop
  | token _ => True
  | node n children => n.span.Spans (tokensOf children) ∧
    (∃ t ∈ tokensOf children, t.kind.isZeroWidth = false) ∧ AllSpanned children
  | part span children => span.Spans (tokensOf children) ∧ AllSpanned children

def AllSpanned : List Outline → Prop
  | [] => True
  | piece :: pieces => piece.Spanned ∧ AllSpanned pieces

end

theorem allSpanned_append {left right : List Outline} :
    AllSpanned (left ++ right) ↔ AllSpanned left ∧ AllSpanned right := by
  induction left with
  | nil => simp [AllSpanned]
  | cons piece pieces ih => simp [AllSpanned, ih, and_assoc]

theorem Spanned.tokens_ne_nil {piece : Outline} (h : piece.Spanned) : piece.tokens ≠ [] := by
  cases piece with
  | token t => simp [tokens]
  | node n children =>
    rw [Spanned] at h
    exact h.1.ne_nil
  | part span children =>
    rw [Spanned] at h
    exact h.1.ne_nil

theorem AllSpanned.exists_solid {pieces : List Outline} (h : AllSpanned pieces)
    (hsolid : pieces.any isSolid = true) :
    ∃ t ∈ tokensOf pieces, t.kind.isZeroWidth = false := by
  induction pieces with
  | nil => cases hsolid
  | cons piece pieces ih =>
    rw [AllSpanned] at h
    rw [tokensOf]
    rw [List.any_cons, Bool.or_eq_true] at hsolid
    rcases hsolid with hsolid | hsolid
    · cases piece with
      | token t => exact ⟨t, by simp [tokens], by simpa [isSolid] using hsolid⟩
      | node n children =>
        obtain ⟨hpiece, _⟩ := h
        rw [Spanned] at hpiece
        obtain ⟨t, ht, hkind⟩ := hpiece.2.1
        exact ⟨t, List.mem_append_left _ ht, hkind⟩
      | part span children => cases hsolid
    · obtain ⟨t, ht, hkind⟩ := ih h.2 hsolid
      exact ⟨t, List.mem_append_right _ ht, hkind⟩

theorem AllSpanned.tokensOf_ne_nil {pieces : List Outline} (h : AllSpanned pieces)
    (hne : pieces ≠ []) : tokensOf pieces ≠ [] := by
  cases pieces with
  | nil => exact absurd rfl hne
  | cons piece pieces =>
    rw [AllSpanned] at h
    rw [tokensOf]
    exact List.append_ne_nil_of_left_ne_nil h.1.tokens_ne_nil _

end Outline

open Outline (tokensOf AllSpanned)

namespace Stream

structure Moves (s : Stream) (tokens : List Token) (u : Stream) : Prop where
  tokens_eq : s.tokens = tokens ++ u.tokens
  failure : u.failure = s.failure
  lastEnd : u.lastEnd = (tokens.getLast?.map fun t => t.span.stop).getD s.lastEnd

structure Reads (s : Stream) (pieces : List Outline) (u : Stream) : Prop where
  moves : s.Moves (tokensOf pieces) u
  spanned : AllSpanned pieces

theorem Moves.refl (s : Stream) : s.Moves [] s :=
  ⟨rfl, rfl, rfl⟩

theorem Moves.trans {s u v : Stream} {ts us : List Token} (h : s.Moves ts u)
    (h' : u.Moves us v) : s.Moves (ts ++ us) v where
  tokens_eq := by rw [h.tokens_eq, h'.tokens_eq, List.append_assoc]
  failure := h'.failure.trans h.failure
  lastEnd := by
    rw [h'.lastEnd, h.lastEnd, List.getLast?_append]
    cases us.getLast? <;> rfl

theorem Moves.spans {s u : Stream} {ts : List Token} (h : s.Moves ts u) (hne : ts ≠ []) :
    (Span.upTo s.current.span.start u.lastEnd).Spans ts := by
  have hlast := List.getLast?_eq_some_getLast hne
  cases ts with
  | nil => exact absurd rfl hne
  | cons t ts =>
    have hcurrent : s.current = t := (List.cons.inj h.tokens_eq).1
    refine ⟨t, _, rfl, hlast, ?_⟩
    rw [h.lastEnd, hlast, hcurrent]
    rfl

theorem Reads.refl (s : Stream) : s.Reads [] s :=
  ⟨.refl s, trivial⟩

theorem Reads.trans {s u v : Stream} {left right : List Outline} (h : s.Reads left u)
    (h' : u.Reads right v) : s.Reads (left ++ right) v where
  moves := by
    rw [Outline.tokensOf_append]
    exact h.moves.trans h'.moves
  spanned := Outline.allSpanned_append.mpr ⟨h.spanned, h'.spanned⟩

theorem Reads.spans {s u : Stream} {pieces : List Outline} (h : s.Reads pieces u)
    (hne : pieces ≠ []) :
    (Span.upTo s.current.span.start u.lastEnd).Spans (tokensOf pieces) :=
  h.moves.spans (h.spanned.tokensOf_ne_nil hne)

theorem Reads.part {s u : Stream} {pieces : List Outline} {span : Span}
    (h : s.Reads pieces u) (hspan : span.Spans (tokensOf pieces)) :
    s.Reads [.part span pieces] u where
  moves := by simpa [tokensOf, Outline.tokens] using h.moves
  spanned := by
    rw [AllSpanned, Outline.Spanned]
    exact ⟨⟨hspan, h.spanned⟩, trivial⟩

theorem Reads.node {s u : Stream} {pieces : List Outline} {n : Node}
    (h : s.Reads pieces u) (hspan : n.span.Spans (tokensOf pieces))
    (hsolid : ∃ t ∈ tokensOf pieces, t.kind.isZeroWidth = false) :
    s.Reads [.node n pieces] u where
  moves := by simpa [tokensOf, Outline.tokens] using h.moves
  spanned := by
    rw [AllSpanned, Outline.Spanned]
    exact ⟨⟨hspan, hsolid, h.spanned⟩, trivial⟩

theorem Reads.inside {s u : Stream} {pieces : List Outline} {n : Node}
    (h : s.Reads [.node n pieces] u) :
    s.Reads pieces u ∧ n.span.Spans (tokensOf pieces) ∧
      ∃ t ∈ tokensOf pieces, t.kind.isZeroWidth = false := by
  have hspanned := h.spanned
  rw [AllSpanned, Outline.Spanned] at hspanned
  refine ⟨⟨?_, hspanned.1.2.2⟩, hspanned.1.1, hspanned.1.2.1⟩
  simpa [tokensOf, Outline.tokens] using h.moves

theorem Reads.current_eq {s u : Stream} (h : s.Reads [] u) : u.current = s.current :=
  (List.cons.inj h.moves.tokens_eq).1.symm

end Stream

end Verbatim
