import Verbatim.Proofs.BlankLines.Inside

/-!
# A blank line at a seam

Where a line starts, a run gives the same words with a blank line in front of the rest of its text
as without. So if the tokens of one text lead up to a seam, a blank line can stand between that
text and any other one.
-/

namespace Verbatim

namespace Scanner

variable {s u y z z' : Scanner} {b r v w : Text} {tokens before more words : List Token}

/-! ## Words -/

/-- The scanner gives tokens up to the end of its text, and these are their words. -/
def Gives (s : Scanner) (words : List Token) : Prop :=
  ∃ tokens, s.Scans tokens none ∧ tokens.map Relabelling.words.token = words

theorem gives_iff_of_next_eq (h : s.next = u.next) : s.Gives words ↔ u.Gives words := by
  constructor
  · rintro ⟨tokens, hscans, hwords⟩
    exact ⟨tokens, hscans.of_next_eq h.symm, hwords⟩
  · rintro ⟨tokens, hscans, hwords⟩
    exact ⟨tokens, hscans.of_next_eq h, hwords⟩

theorem Gives.of_sameBlocks (h : s.Gives words) (hsame : s.SameBlocks u) (hrest : u.rest = s.rest) :
    u.Gives words := by
  obtain ⟨tokens, hscans, rfl⟩ := h
  exact hscans.words_of_follows (hsame.follows hrest)

/-- What a scanner has passed does not show in its words. -/
theorem gives_iff_of_sameBlocks (hsame : s.SameBlocks u) (hrest : u.rest = s.rest) :
    s.Gives words ↔ u.Gives words :=
  ⟨fun h => h.of_sameBlocks hsame hrest, fun h => h.of_sameBlocks hsame.symm hrest.symm⟩

/-! ## Where a line starts -/

/-- What is passed where a line is entered does not show in the words. -/
theorem gives_startLine_iff
    (h : ∀ x : Scanner, x.rest = b → ∃ v, x.entered = v.entered ∧ v.rest = r ∧ x.SameBlocks v) :
    (s.startLine b).Gives words ↔ (s.startLine r).Gives words := by
  obtain ⟨x, hentered, rfl, hsame⟩ := h { s with rest := b, atLineStart := false } rfl
  have hnext : (s.startLine b).next = (x.startLine x.rest).next :=
    next_eq_of_entered ((enterLineIfDue_of_atLineStart rfl).trans hentered) hsame.atLineStart
  have hsame : (s.startLine x.rest).SameBlocks (x.startLine x.rest) :=
    hsame.startLine x.rest x.rest
  exact (gives_iff_of_next_eq hnext).trans (gives_iff_of_sameBlocks hsame.symm rfl)

theorem AtSeam.gives_iff (h : s.AtSeam b z) : z.Gives words ↔ (s.startLine b).Gives words := by
  obtain ⟨y, hleft, hsame, hnext⟩ := h.exists_next
  have hline : y.Gives words ↔ (s.startLine y.rest).Gives words :=
    gives_iff_of_sameBlocks hsame.symm rfl
  have hleft : (s.startLine b).Gives words ↔ (s.startLine y.rest).Gives words :=
    gives_startLine_iff fun x hx => entered_leftOf (hx ▸ hleft)
  exact (gives_iff_of_next_eq hnext).trans (hline.trans hleft.symm)

/-- At a seam it does not show in the words that a blank line comes first. -/
theorem AtSeam.gives_blankLine_iff (h : s.AtSeam v z) (h' : s.AtSeam (w ++ v) z')
    (hw : w.BlankLine) : z.Gives words ↔ z'.Gives words := by
  have hpass : (s.startLine (w ++ v)).Gives words ↔ (s.startLine v).Gives words :=
    gives_startLine_iff fun x hx => entered_blankLine hw hx
  exact h.gives_iff.trans (hpass.symm.trans h'.gives_iff.symm)

/-! ## Up to the seam -/

theorem LeadsToSeam.prepend (h : ∀ b, (s.extend b).Steps before (y.extend b))
    (hy : y.LeadsToSeam more u) : s.LeadsToSeam (before ++ more) u where
  steps := by
    have hnone := h []
    rw [extend_nil, extend_nil] at hnone
    exact hnone.append hy.steps
  atLineStart := hy.atLineStart
  atEnd := hy.atEnd
  further b := by
    obtain ⟨more', z, hsteps, hsame, hseam⟩ := hy.further b
    refine ⟨before ++ more', z, (h b).append hsteps, ?_, hseam⟩
    rw [List.map_append, List.map_append, hsame]

theorem LeadsToSeam.insert {options : Options} {a : Text}
    (h : (ofText options a).LeadsToSeam before u) (hinside : ∀ t ∈ before, t.kind ≠ .endOfFile)
    (hw : w.BlankLine) (hscans : (ofText options (a ++ v)).Scans tokens none) :
    (ofText options (a ++ (w ++ v))).Gives (tokens.map Relabelling.words.token) := by
  obtain ⟨before₁, z₁, hsteps₁, hsame₁, hseam₁⟩ := h.further v
  obtain ⟨before₂, z₂, hsteps₂, hsame₂, hseam₂⟩ := h.further (w ++ v)
  obtain ⟨more₁, rfl, hmore₁⟩ := hscans.of_steps hsteps₁ (Relabelling.forall_kind_ne hsame₁ hinside)
  obtain ⟨more₂, hmore₂, hwords⟩ := (hseam₁.gives_blankLine_iff hseam₂ hw).mp ⟨more₁, hmore₁, rfl⟩
  refine ⟨before₂ ++ more₂, hsteps₂.scans (Relabelling.forall_kind_ne hsame₂ hinside) hmore₂, ?_⟩
  rw [List.map_append, List.map_append, hsame₁, hsame₂, hwords]

end Scanner

end Verbatim
