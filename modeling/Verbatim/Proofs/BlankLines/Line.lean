import Verbatim.Proofs.Concat.Scanner

/-!
# Lines without a token

A line of blanks, or of blanks and a comment, has no token. Where a logical line begins, such a
line is passed on the way to it, and what stands on it leaves no trace in the blocks: neither its
blanks nor what its comment says.
-/

namespace Verbatim

open Text (lineBreakLength)

/-- A line of blanks, or of blanks and a comment, with the line feed at its end. -/
inductive Text.BlankLine : Text → Prop
  | blank {w : Text} (hw : ∀ c ∈ w, Scanner.isBlank c = true) : BlankLine (w ++ ['\n'])
  | comment {w body : Text} (hw : ∀ c ∈ w, Scanner.isBlank c = true)
      (hbody : ∀ c ∈ body, isLineBreak c = false) : BlankLine (w ++ '#' :: (body ++ ['\n']))

namespace Scanner

variable {s : Scanner} {w comment r : Text}

/-- The scanner passes the blanks and the comment of a line, and then its line feed. -/
theorem entered_of_line (hrest : s.rest = w ++ (comment ++ '\n' :: r))
    (hw : ∀ c ∈ w, isBlank c = true)
    (hhead : ∀ c ∈ (comment ++ '\n' :: r).head?, isBlank c = false)
    (hcomment : commentLength (comment ++ '\n' :: r) = comment.length) :
    ∃ v, s.entered = v.entered ∧ v.rest = r ∧ s.SameBlocks v := by
  have hblanks : blanks s.rest = w := by
    rw [hrest]
    exact blanks_append (List.takeWhile_eq_self_iff.mpr hw) hhead
  have hbehind : (s.keep .whitespace (blanks s.rest).length).rest = comment ++ '\n' :: r := by
    rw [rest_keep, hblanks, hrest, List.drop_left]
  have hline : s.passLine.rest = '\n' :: r := by
    rw [passLine, rest_keep, hbehind, hcomment, List.drop_left]
  have hbreak : lineBreakLength s.passLine.rest = 0 + 1 := by
    rw [hline]
    rfl
  refine ⟨_, entered_newline hbreak, ?_, s.sameBlocks_passLine.trans (sameBlocks_keep _ _ _)⟩
  rw [rest_keep, hline]
  rfl

/-- A line without a token is passed, and the scanner enters the lines behind it. -/
theorem entered_blankLine (h : w.BlankLine) (hrest : s.rest = w ++ r) :
    ∃ v, s.entered = v.entered ∧ v.rest = r ∧ s.SameBlocks v := by
  cases h with
  | @blank w hw =>
    have hsplit : s.rest = w ++ ([] ++ '\n' :: r) := by simpa using hrest
    exact entered_of_line hsplit hw (by rintro c ⟨⟩; rfl) rfl
  | @comment w body hw hbody =>
    have hsplit : s.rest = w ++ ('#' :: body ++ '\n' :: r) := by simpa using hrest
    have hall : ∀ c ∈ '#' :: body, Text.isLineBreak c = false :=
      List.forall_mem_cons.mpr ⟨rfl, hbody⟩
    refine entered_of_line hsplit hw (by rintro c ⟨⟩; rfl) ?_
    have hfirst := Text.firstLine_append_of_unbroken hall ('\n' :: r)
    have hnil : Text.firstLine ('\n' :: r) = [] := rfl
    rw [commentLength, hfirst, hnil, List.append_nil]
    rfl

end Scanner

end Verbatim
