import Verbatim.Proofs.Grammar.Reads
import Verbatim.Proofs.Text

/-!
# Spans nest

The grammar gives each node the span from its first token to its last one. The tokens of a
source stand in order, so these spans follow each other and lie inside each other as the
nodes do.
-/

namespace Verbatim

open Outline (tokensOf AllSpanned)

/-! ## Tokens of one source -/

namespace Token

structure Row (source : Text) (tokens : List Token) : Prop where
  inOrder : InOrder tokens
  slices : ∀ t ∈ tokens, source.slice? t.span = some t.text
  zeroWidth : ∀ t ∈ tokens, t.text = [] ↔ t.kind.isZeroWidth = true

theorem Row.sublist {source : Text} {ts us : List Token} (h : Row source ts)
    (hs : us.Sublist ts) : Row source us where
  inOrder := h.inOrder.sublist hs
  slices t ht := h.slices t (hs.subset ht)
  zeroWidth t ht := h.zeroWidth t (hs.subset ht)

theorem InOrder.bounds {tokens : List Token} {first last t : Token} (h : InOrder tokens)
    (hfirst : tokens.head? = some first) (hlast : tokens.getLast? = some last)
    (ht : t ∈ tokens) :
    first.span.start ≤ t.span.start ∧ t.span.stop ≤ last.span.stop := by
  have := first.span.start_le_stop
  have := last.span.start_le_stop
  constructor
  · obtain ⟨rest, rfl⟩ := List.head?_eq_some_iff.mp hfirst
    rcases List.mem_cons.mp ht with rfl | ht
    · exact Nat.le_refl _
    · have := (List.pairwise_cons.mp h).1 t ht
      omega
  · obtain ⟨init, rfl⟩ := List.getLast?_eq_some_iff.mp hlast
    rcases List.mem_append.mp ht with ht | ht
    · have := (List.pairwise_append.mp h).2.2 t ht last (List.mem_singleton_self last)
      omega
    · obtain rfl := List.mem_singleton.mp ht
      exact Nat.le_refl _

end Token

/-- From the start of the first of some tokens to the end of the last one, and no further. -/
def Span.Exact (a : Span) (tokens : List Token) : Prop :=
  ∃ first last, tokens.head? = some first ∧ tokens.getLast? = some last ∧
    a.start = first.span.start ∧ a.stop = last.span.stop

theorem Span.Spans.exact {a : Span} {tokens : List Token} (h : a.Spans tokens)
    (horder : Token.InOrder tokens) : a.Exact tokens := by
  obtain ⟨first, last, hfirst, hlast, rfl⟩ := h
  have hbounds := horder.bounds hfirst hlast (List.mem_of_mem_head? hfirst)
  have := first.span.start_le_stop
  refine ⟨first, last, hfirst, hlast, rfl, ?_⟩
  simp only [Span.upTo]
  omega

/-! ## One node -/

/-- A span around some pieces of a source: it covers their tokens exactly, there is text for
it, and the pieces inside stand one after the other. -/
structure Frames (source : Text) (span : Span) (pieces : List Outline) : Prop where
  exact : span.Exact (tokensOf pieces)
  slices : (source.slice? span).isSome = true
  contains : ∀ piece ∈ pieces, span.contains piece.span = true
  inOrder : pieces.Pairwise fun a b => a.span.stop ≤ b.span.start

namespace Outline

theorem tokens_sublist {pieces : List Outline} {piece : Outline} (h : piece ∈ pieces) :
    piece.tokens.Sublist (tokensOf pieces) := by
  induction pieces with
  | nil => cases h
  | cons first pieces ih =>
    rw [tokensOf]
    rcases List.mem_cons.mp h with rfl | h
    · exact List.sublist_append_left _ _
    · exact (ih h).trans (List.sublist_append_right _ _)

theorem AllSpanned.of_mem {pieces : List Outline} {piece : Outline} (h : AllSpanned pieces)
    (hmem : piece ∈ pieces) : piece.Spanned := by
  induction pieces with
  | nil => cases hmem
  | cons first pieces ih =>
    rw [AllSpanned] at h
    rcases List.mem_cons.mp hmem with rfl | hmem
    · exact h.1
    · exact ih h.2 hmem

theorem Spanned.exact {piece : Outline} (h : piece.Spanned)
    (horder : Token.InOrder piece.tokens) : piece.span.Exact piece.tokens := by
  cases piece with
  | token t => exact ⟨t, t, rfl, rfl, rfl, rfl⟩
  | node n children =>
    rw [Spanned] at h
    exact h.1.exact horder
  | part span children =>
    rw [Spanned] at h
    exact h.1.exact horder

theorem AllSpanned.pairwise {pieces : List Outline} (h : AllSpanned pieces)
    (horder : Token.InOrder (tokensOf pieces)) :
    pieces.Pairwise fun a b => a.span.stop ≤ b.span.start := by
  induction pieces with
  | nil => exact .nil
  | cons piece pieces ih =>
    rw [AllSpanned] at h
    rw [tokensOf] at horder
    obtain ⟨hpiece, hpieces, hbetween⟩ := List.pairwise_append.mp horder
    refine .cons (fun b hb => ?_) (ih h.2 hpieces)
    -- the last token of one piece comes before the first token of a later one
    have hsublist := tokens_sublist hb
    obtain ⟨_, last, _, hlast, _, hstop⟩ := h.1.exact hpiece
    obtain ⟨first, _, hfirst, _, hstart, _⟩ := (h.2.of_mem hb).exact (hpieces.sublist hsublist)
    rw [hstop, hstart]
    exact hbetween last (List.mem_of_mem_getLast? hlast) first
      (hsublist.subset (List.mem_of_mem_head? hfirst))

end Outline

theorem frames {source : Text} {span : Span} {pieces : List Outline}
    (hspan : span.Spans (tokensOf pieces)) (hpieces : AllSpanned pieces)
    (hrow : Token.Row source (tokensOf pieces)) : Frames source span pieces := by
  obtain ⟨first, last, hfirst, hlast, hstart, hstop⟩ := hspan.exact hrow.inOrder
  refine ⟨⟨first, last, hfirst, hlast, hstart, hstop⟩, ?_, ?_, hpieces.pairwise hrow.inOrder⟩
  · apply Text.slice?_of_isBoundary
    · rw [hstart]
      exact (Text.isBoundary_of_slice? (hrow.slices first (List.mem_of_mem_head? hfirst))).1
    · rw [hstop]
      exact (Text.isBoundary_of_slice? (hrow.slices last (List.mem_of_mem_getLast? hlast))).2
  · intro piece hmem
    have hsublist := Outline.tokens_sublist hmem
    obtain ⟨first', last', hfirst', hlast', hstart', hstop'⟩ :=
      (hpieces.of_mem hmem).exact (hrow.inOrder.sublist hsublist)
    have hlower := hrow.inOrder.bounds hfirst hlast
      (hsublist.subset (List.mem_of_mem_head? hfirst'))
    have hupper := hrow.inOrder.bounds hfirst hlast
      (hsublist.subset (List.mem_of_mem_getLast? hlast'))
    rw [Span.contains_iff]
    omega

/-- A node with text among its tokens is not empty. -/
theorem Span.Exact.start_lt_stop {source : Text} {span : Span} {tokens : List Token}
    (h : span.Exact tokens) (hrow : Token.Row source tokens)
    (hsolid : ∃ t ∈ tokens, t.kind.isZeroWidth = false) : span.start < span.stop := by
  obtain ⟨t, ht, hkind⟩ := hsolid
  obtain ⟨first, last, hfirst, hlast, hstart, hstop⟩ := h
  obtain ⟨before, after, _, htstart, htstop⟩ := Text.slice?_eq_some (hrow.slices t ht)
  have hsize : Text.size t.text ≠ 0 := by
    intro hzero
    rw [(hrow.zeroWidth t ht).mp (Text.eq_nil_of_size_eq_zero hzero)] at hkind
    cases hkind
  rw [Text.size_append] at htstop
  have := hrow.inOrder.bounds hfirst hlast ht
  omega

/-! ## All nodes -/

namespace Outline

mutual

/-- Every span inside frames what it was recorded for, and no node is empty. -/
def Nested (source : Text) : Outline → Prop
  | token _ => True
  | node n children =>
    Frames source n.span children ∧ n.span.start < n.span.stop ∧ AllNested source children
  | part span children => Frames source span children ∧ AllNested source children

def AllNested (source : Text) : List Outline → Prop
  | [] => True
  | piece :: pieces => piece.Nested source ∧ AllNested source pieces

end

mutual

theorem Spanned.nested {source : Text} {piece : Outline} (h : piece.Spanned)
    (hrow : Token.Row source piece.tokens) : piece.Nested source := by
  cases piece with
  | token t =>
    rw [Nested]
    trivial
  | node n children =>
    rw [Spanned] at h
    rw [tokens] at hrow
    rw [Nested]
    have hframes := frames h.1 h.2.2 hrow
    exact ⟨hframes, hframes.exact.start_lt_stop hrow h.2.1, AllSpanned.nested h.2.2 hrow⟩
  | part span children =>
    rw [Spanned] at h
    rw [tokens] at hrow
    rw [Nested]
    exact ⟨frames h.1 h.2 hrow, AllSpanned.nested h.2 hrow⟩

theorem AllSpanned.nested {source : Text} {pieces : List Outline} (h : AllSpanned pieces)
    (hrow : Token.Row source (tokensOf pieces)) : AllNested source pieces := by
  cases pieces with
  | nil =>
    rw [AllNested]
    trivial
  | cons piece pieces =>
    rw [AllSpanned] at h
    rw [tokensOf] at hrow
    rw [AllNested]
    exact ⟨Spanned.nested h.1 (hrow.sublist (List.sublist_append_left _ _)),
      AllSpanned.nested h.2 (hrow.sublist (List.sublist_append_right _ _))⟩

end

end Outline

end Verbatim
