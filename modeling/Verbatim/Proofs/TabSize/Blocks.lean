import Verbatim.Proofs.Concat.Scanner

/-!
# Scanners that differ in their blocks

What a scanner passes over and takes does not depend on the width of a tab stop, on its open blocks,
or on the markers that are due. So a scanner does the same inside other blocks, apart from what the
start of a line does to the blocks.
-/

namespace Verbatim

namespace Scanner

/-- What a scanner knows of indentation. -/
structure Blocks where
  tabSize : Nat
  columns : List Nat
  scheduled : Scheduled
  markerOffset : Nat

def blocks (s : Scanner) : Blocks :=
  ⟨s.tabSize, s.columns, s.scheduled, s.markerOffset⟩

def withBlocks (blocks : Blocks) (s : Scanner) : Scanner :=
  { s with
    tabSize := blocks.tabSize, columns := blocks.columns, scheduled := blocks.scheduled,
    markerOffset := blocks.markerOffset }

variable {s u : Scanner} {b b' : Blocks} {kind : TokenKind} {n : Nat}

theorem withBlocks_blocks (s : Scanner) : s.withBlocks s.blocks = s := rfl

theorem withBlocks_withBlocks : (s.withBlocks b).withBlocks b' = s.withBlocks b' := rfl

theorem blocks_withBlocks : (s.withBlocks b).blocks = b := rfl

/-- The same step inside other blocks. -/
def Step.withBlocks {α : Type} (b : Blocks) (step : Step α) : Step α :=
  (step.1, step.2.withBlocks b)

/-! ## Inside a line -/

theorem keep_withBlocks (kind : TriviaKind) (n : Nat) :
    (s.withBlocks b).keep kind n = (s.keep kind n).withBlocks b := by
  unfold keep
  split <;> rfl

theorem passLine_withBlocks : (s.withBlocks b).passLine = s.passLine.withBlocks b := by
  rw [passLine, keep_withBlocks, keep_withBlocks]
  rfl

theorem passTriviaUpTo_withBlocks (n : Nat) :
    passTriviaUpTo n (s.withBlocks b) = (passTriviaUpTo n s).withBlocks b := by
  induction n generalizing s with
  | zero => rfl
  | succ n ih =>
    have hahead : (s.withBlocks b).triviaAhead? = s.triviaAhead? := rfl
    rw [passTriviaUpTo, passTriviaUpTo, hahead]
    split
    · rw [keep_withBlocks, ih]
    · rfl

theorem passTrivia_withBlocks : (s.withBlocks b).passTrivia = s.passTrivia.withBlocks b :=
  passTriviaUpTo_withBlocks _

theorem lexeme_withBlocks :
    (s.withBlocks b).lexeme kind n = (s.lexeme kind n).withBlocks b := by
  have hdepth : (s.withBlocks b).bracketDepth = s.bracketDepth := rfl
  have hbrackets : (s.withBlocks b).brackets = s.brackets := rfl
  unfold lexeme
  rw [hdepth, hbrackets]
  split
  · split <;> rfl
  · split
    · rfl
    · split <;> rfl
  · rfl

/-- In front of some text a token is taken, or is at fault, in the same way. -/
theorem scanToken_withBlocks (hne : s.rest ≠ []) :
    (s.withBlocks b).scanToken = s.scanToken.withBlocks b := by
  have hrest : (s.withBlocks b).rest = s.rest := rfl
  unfold scanToken
  rw [hrest]
  split
  · next hnil => exact absurd hnil hne
  · split
    · rfl
    · split
      · rfl
      · split
        · rfl
        · split
          · exact lexeme_withBlocks
          · rfl

theorem blocks_passTrivia (s : Scanner) : s.passTrivia.blocks = s.blocks := by
  have h := passTrivia_withBlocks (s := s) (b := s.blocks)
  rw [withBlocks_blocks] at h
  rw [h, blocks_withBlocks]

theorem blocks_scanToken (hne : s.rest ≠ []) : s.scanToken.2.blocks = s.blocks := by
  have h := scanToken_withBlocks (b := s.blocks) hne
  rw [withBlocks_blocks] at h
  rw [h]
  exact blocks_withBlocks

/-! ## The start of a line -/

theorem withBlocks_closeBlocks : s.closeBlocks.withBlocks b = s.withBlocks b := by
  unfold closeBlocks
  split <;> rfl

theorem withBlocks_measure (column : Nat) :
    (s.measure column).2.withBlocks b = s.withBlocks b := by
  unfold measure
  dsimp only
  split
  · rfl
  · split <;> rfl

/-- What is passed over at the start of a line does not depend on the blocks, though what becomes
of them does. -/
theorem enterLine_withBlocks (n : Nat) :
    (enterLine n (s.withBlocks b)).2.withBlocks b' = (enterLine n s).2.withBlocks b' := by
  induction n generalizing s with
  | zero => rfl
  | succ n ih =>
    have hrest : (s.passLine.withBlocks b).rest = s.passLine.rest := rfl
    rw [enterLine_succ, enterLine_succ, passLine_withBlocks, hrest]
    split
    · split
      · dsimp only
        rw [withBlocks_closeBlocks, withBlocks_closeBlocks, withBlocks_withBlocks]
      · rw [withBlocks_measure, withBlocks_measure, withBlocks_withBlocks]
    · rw [keep_withBlocks, ih]

theorem enterLineIfDue_withBlocks :
    (s.withBlocks b).enterLineIfDue.2.withBlocks b' = s.enterLineIfDue.2.withBlocks b' := by
  have hstart : (s.withBlocks b).atLineStart = s.atLineStart := rfl
  unfold enterLineIfDue
  rw [hstart]
  split
  · exact enterLine_withBlocks (s := { s with atLineStart := false }) _
  · rfl

end Scanner

end Verbatim
