import Verbatim.Proofs.Grammar.Root
import Verbatim.Proofs.Layout.Statements

/-!
# Blocks are columns

The blocks of a module are those that the columns of its lines show. The scanner turns
columns into markers and the grammar turns markers into blocks; along the way no line comes to
stand in a block of another column.
-/

namespace Verbatim

/-- The statements of a module begin in column zero, and those of a block in a common column,
greater than that of the statement that the block belongs to, whose lines all begin in one
column. -/
theorem blocks_by_column {options : Options} {t : Text} {tree : ModuleTree}
    (h : parseModule options t = .ok tree) :
    ∃ tokens, tokenize options t = .ok tokens ∧ ∀ s ∈ tree.statements,
      Compound.LaidOut (Layout.Begins options.effectiveTabSize tokens) 0 (.stmt s) := by
  have hfits := TokenRun.fits options t
  obtain ⟨hfailure, -⟩ := TokenRun.tokenize_eq_ok_iff.mp (Parses.module h).holds.tokenize_eq
  obtain ⟨s, u, hstream, hroot⟩ := parseWith_eq_ok h
  refine ⟨_, TokenRun.tokenize_eq_ok_iff.mpr ⟨hfailure, rfl⟩, ?_⟩
  refine Grammar.laidOut_moduleRoot ?_ tree u hroot
  rw [Stream.AtLine, (Stream.ofRun_eq_ok hstream).1]
  exact hfits

/-- Tabs and spaces, a comment line, a decorator, and two blocks that end at the same place. -/
theorem blocks_by_column_of_if :
    ∃ tree tokens,
      parseModule {} "if a:\n\t@b\n\tdef c():\n # d\n\t  e\nelse: f".toList = .ok tree ∧
        tokenize {} "if a:\n\t@b\n\tdef c():\n # d\n\t  e\nelse: f".toList = .ok tokens ∧
        (Layout.firsts .lineStart tokens).map (Token.column 8) = [0, 8, 8, 10, 0] ∧
        ∀ s ∈ tree.statements, Compound.LaidOut (Layout.Begins 8 tokens) 0 (.stmt s) := by
  have hparses : (parseModule {}
      "if a:\n\t@b\n\tdef c():\n # d\n\t  e\nelse: f".toList).toOption.isSome = true := by
    decide +kernel
  have hcolumns : ((tokenize {} "if a:\n\t@b\n\tdef c():\n # d\n\t  e\nelse: f".toList).toOption.map
      fun tokens => (Layout.firsts .lineStart tokens).map (Token.column 8)) =
        some [0, 8, 8, 10, 0] := by
    decide +kernel
  rcases htree : parseModule {} "if a:\n\t@b\n\tdef c():\n # d\n\t  e\nelse: f".toList
    with error | tree
  · rw [htree] at hparses
    cases hparses
  · obtain ⟨tokens, htokens, hlaid⟩ := blocks_by_column htree
    rw [htokens, Except.toOption, Option.map_some, Option.some.injEq] at hcolumns
    exact ⟨tree, tokens, rfl, htokens, hcolumns, hlaid⟩

end Verbatim
