import Verbatim.Proofs.Grammar.Root
import Verbatim.Proofs.Records
import Verbatim.Proofs.Scanner.Partition

/-!
# The spans of a parsed tree

Whatever a source parses to, the recorded spans are exact and nest as the nodes do.
-/

namespace Verbatim

theorem Holds.row {options : Options} {t : Text} {span : Span} {pieces : List Outline}
    (h : Holds options t span pieces) : Token.Row t (Outline.tokensOf pieces) := by
  obtain ⟨u, hsteps⟩ := h.steps
  obtain ⟨entries, haccounts⟩ := hsteps.accounts
  refine ⟨hsteps.orderly.inOrder, ?_, hsteps.orderly.zeroWidth⟩
  intro token htoken
  have hmem : token ∈ entries.filterMap Entry.token? := by
    rw [haccounts.tokens, List.mem_filterMap]
    exact ⟨.token token, List.mem_map_of_mem htoken, rfl⟩
  obtain ⟨e, he, htoken⟩ := List.mem_filterMap.mp hmem
  have hslice := haccounts.partition.slices e he
  cases e with
  | token t' =>
    cases htoken
    exact hslice
  | trivia _ => cases htoken
  | fault _ _ => cases htoken

/-- The root of a tree and everything inside it have the spans of their tokens, the pieces of
each stand in order inside it, and the records of a walk show no node that escapes. -/
theorem spans_nest {options : Options} {t : Text} {span : Span} {pieces : List Outline}
    (h : Parses options t span pieces) :
    Frames t span pieces ∧ Outline.AllNested t pieces ∧
      NodeSpan.findEscape (Outline.nodeSpans pieces) = none := by
  have hholds := h.holds
  have hrow := hholds.row
  have hnested := hholds.spanned.nested hrow
  exact ⟨frames hholds.spans hholds.spanned hrow, hnested,
    Outline.findEscape_eq_none hnested⟩

/-- A block that ends after a comment, which its `dedent` passes over. -/
theorem spans_nest_of_while :
    ∃ span pieces, Parses {} "while 1:\n 2\n# a\n".toList span pieces ∧
      Frames "while 1:\n 2\n# a\n".toList span pieces := by
  have hparses : (parseModule {} "while 1:\n 2\n# a\n".toList).toOption.isSome = true := by
    decide +kernel
  rcases htree : parseModule {} "while 1:\n 2\n# a\n".toList with error | tree
  · rw [htree] at hparses
    cases hparses
  · exact ⟨_, _, .module htree, (spans_nest (.module htree)).1⟩

end Verbatim
