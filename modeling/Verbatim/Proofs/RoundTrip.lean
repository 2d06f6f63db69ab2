import Verbatim.Proofs.Grammar.Root
import Verbatim.Proofs.Walk

/-!
# From a source to a tree and back

The tokens that a walk over a parsed tree meets are the tokens of its source, so the tree
writes the source back, byte for byte.
-/

namespace Verbatim

/-- Whatever a source parses to, a visitor that goes on to the end is told of exactly the
tokens of the source, and writing the tree gives the source. -/
theorem walk_eq_tokenize {options : Options} {t : Text} {span : Span} {pieces : List Outline}
    (h : Parses options t span pieces) :
    ∃ before last, last.kind = .endOfFile ∧ (∀ token ∈ before, token.kind ≠ .endOfFile) ∧
      tokenize options t = .ok (before ++ [last]) ∧
      (Outline.eventsOf pieces).filterMap Event.token? = before ++ [last] ∧
      (∀ {σ : Type} (visitor : Visitor σ) (s : σ), visitor.Continues →
        Outline.walkAll visitor pieces s =
          .ok ((Outline.eventsOf pieces).foldl visitor.tell s)) ∧
      Outline.walkAll SourceBuffer.writer pieces .empty = .ok ⟨t⟩ ∧
      (SourceBuffer.empty.addPieces pieces).text = t := by
  have hholds := h.holds
  obtain ⟨before, last, htokens, hlast, hbefore⟩ := hholds.endsInside
  have hwritten : (SourceBuffer.empty.addPieces pieces).text = t := by
    rw [SourceBuffer.text_addPieces, Outline.sourceOf, hholds.ofTokens_eq]
    rfl
  refine ⟨before, last, hlast, hbefore, ?_, ?_, ?_, ?_, hwritten⟩
  · rw [hholds.tokenize_eq, htokens]
  · rw [Outline.filterMap_token?_eventsOf, htokens]
  · intro σ visitor s hvisitor
    exact Outline.walkAll_eq_foldl hvisitor pieces s
  · rw [SourceBuffer.walkAll_writer, ← hwritten]

/-- A source with a comment, and with a block whose last line has no line break. -/
theorem walk_eq_tokenize_of_if :
    ∃ span pieces, Parses {} "if 1: # a\n\t2".toList span pieces ∧
      (SourceBuffer.empty.addPieces pieces).text = "if 1: # a\n\t2".toList := by
  have hparses : (parseModule {} "if 1: # a\n\t2".toList).toOption.isSome = true := by
    decide +kernel
  rcases htree : parseModule {} "if 1: # a\n\t2".toList with error | tree
  · rw [htree] at hparses
    cases hparses
  · obtain ⟨_, _, _, _, _, _, _, _, htext⟩ := walk_eq_tokenize (.module htree)
    exact ⟨_, _, .module htree, htext⟩

end Verbatim
