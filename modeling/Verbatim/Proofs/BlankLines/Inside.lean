import Verbatim.Proofs.Concat.Tokens

/-!
# Steps that stay in front of a line end

A text is cut behind a line break. A step of a run over the whole text that does not reach the cut
needs nothing of what stands behind it: with any other text there the same step is done. So a run
up to some place in front of the cut is a run over each text that begins in the same way.
-/

namespace Verbatim

open Text (EndsLine firstLine lineBreakLength)

namespace Scanner

variable {s u y z : Scanner} {v : Text} {token : Token} {tokens : List Token}

/-- The step leaves some of the scanner's text, and is the same whatever comes behind. -/
structure Stays (s : Scanner) (token : Token) (u : Scanner) : Prop where
  rest : u.rest.EndsLine
  next : ∀ b, (s.extend b).next = (.ok token, u.extend b)

theorem length_rest_extend (b : Text) (s : Scanner) :
    (s.extend b).rest.length = s.rest.length + b.length := by
  rw [rest_extend, List.length_append]

theorem length_leftOf_le {b r : Text} (h : b.LeftOf r) : r.length ≤ b.length := by
  rcases h with rfl | rfl
  · exact Nat.le_refl _
  · exact Nat.le_succ _

/-- What is read for a token ends in front of the cut, so it is read without the text behind. -/
theorem scanToken_of_extend_lexeme {c : Char} {t : Text} (hs : s.rest.EndsLine)
    (hrest : s.rest = c :: t) (hhash : c ≠ '#') (hslash : c ≠ '\\') (hc : Text.isLineBreak c ≠ true)
    (h : (s.extend v).scanToken = (.ok token, z)) (hz : v.length < z.rest.length) :
    ∃ u, s.scanToken = (.ok token, u) ∧ u.rest ≠ [] := by
  have hne : firstLine s.rest ≠ [] := by simp [hrest, firstLine, hc]
  rw [scanToken_lexeme (rest_extend_cons hrest v) hhash hslash hc] at h
  split at h
  · next kind n hread =>
    have hdrop := (lexeme_eq_ok h).2
    have hn : n < s.rest.length := by
      rw [hdrop, List.length_drop, length_rest_extend] at hz
      omega
    have hlexeme := lexeme_extend kind hn.le v
    rw [h] at hlexeme
    rcases hown : s.lexeme kind n with ⟨result, u⟩
    rw [hown] at hlexeme
    cases hlexeme
    refine ⟨u, ?_, ?_⟩
    · rw [scanToken_lexeme hrest hhash hslash hc, Lexeme.read_of_append hs hne hread hn.le]
      exact hown
    · rw [(lexeme_eq_ok hown).2]
      exact mt List.drop_eq_nil_iff.mp (Nat.not_le.mpr hn)
  · cases h

theorem scanToken_stays (hs : s.rest.EndsLine) (h : (s.extend v).scanToken = (.ok token, z))
    (hz : v.length < z.rest.length) :
    ∃ u : Scanner, u.rest.EndsLine ∧ ∀ b, (s.extend b).scanToken = (.ok token, u.extend b) := by
  obtain ⟨c, t, hrest⟩ := List.exists_cons_of_ne_nil hs.ne_nil
  -- whatever the step gives, with the text behind it is what was given
  have hsame {first : Token} {u : Scanner} (hends : u.rest.EndsLine)
      (hall : ∀ b, (s.extend b).scanToken = (.ok first, u.extend b)) :
      ∃ u : Scanner, u.rest.EndsLine ∧
        ∀ b, (s.extend b).scanToken = (.ok token, u.extend b) := by
    cases (hall v).symm.trans h
    exact ⟨u, hends, hall⟩
  by_cases hc : Text.isLineBreak c = true
  · rcases scanToken_extend_lineBreak hs hrest hc (scanToken_lineBreak hrest hc) with
      ⟨hends, hall⟩ | hcompletes
    · exact hsame hends hall
    · obtain ⟨last, y, hlast, -, hcrosses⟩ := hcompletes.breaks rfl v
      cases hlast.symm.trans h
      exact absurd (length_leftOf_le hcrosses.rest) hz.not_ge
  by_cases hhash : c = '#'
  · subst hhash
    obtain ⟨hends, hall⟩ := scanToken_extend_hash hs hrest (scanToken_hash hrest)
    exact hsame hends hall
  by_cases hslash : c = '\\'
  · subst hslash
    obtain ⟨fault, hfault⟩ := scanToken_backslash (rest_extend_cons hrest v)
    cases hfault.symm.trans h
  · obtain ⟨u, hscan, hne⟩ := scanToken_of_extend_lexeme hs hrest hhash hslash hc h hz
    rcases scanToken_extend hs hscan with ⟨hends, hall⟩ | hcompletes
    · exact ⟨u, hends, hall⟩
    · exact absurd hcompletes.rest hne

/-! ## Steps -/

theorem next_stays_of_atLineStart (hs : s.rest.EndsLine) (hstart : s.atLineStart = false)
    (h : (s.extend v).next = (.ok token, z)) (hz : v.length < z.rest.length) :
    ∃ u, s.Stays token u := by
  have hextend (b : Text) := next_eq_of_atLineStart (s := s.extend b) hstart
  cases hdue : s.scheduled with
  | indent =>
    simp only [scheduled_extend, hdue] at hextend
    cases (hextend v).symm.trans h
    exact ⟨{ s with scheduled := .dedents 0 }, hs, hextend⟩
  | dedents n =>
    simp only [scheduled_extend, hdue] at hextend
    cases n with
    | succ n =>
      cases (hextend v).symm.trans h
      exact ⟨{ s with scheduled := .dedents n }, hs, hextend⟩
    | zero =>
      have hsettled : (s.extend v).settled = (s.extend v).passTrivia := by
        simp [settled, enterLineIfDue, extend, hstart, hdue]
      have hle := (rest_next_suffix_settled (s.extend v)).length_le
      rw [h, hsettled] at hle
      rw [hextend] at h
      rcases passTrivia_extend hs with ⟨hends, hpass⟩ | ⟨-, hlength⟩
      · rw [hpass] at h
        obtain ⟨u, hrest, hall⟩ := scanToken_stays hends h hz
        refine ⟨u, hrest, fun b => ?_⟩
        rw [hextend, hpass, hall]
      · exact absurd (hle.trans (hlength v)) hz.not_ge

/-- The scanner as it starts a line, in front of some text. -/
def startLine (b : Text) (s : Scanner) : Scanner :=
  { s with rest := b, atLineStart := true }

theorem SameBlocks.startLine (h : s.SameBlocks u) (b r : Text) :
    (s.startLine b).SameBlocks (u.startLine r) :=
  ⟨h.tabSize, h.columns, h.brackets, h.scheduled, rfl⟩

theorem next_eq_of_entered (h : z.enterLineIfDue = y.entered) (hstart : y.atLineStart = false) :
    z.next = (y.startLine y.rest).next := by
  have hy : ({ y with atLineStart := false } : Scanner) = y := by rw [← hstart]
  have hdue : (y.startLine y.rest).enterLineIfDue = y.entered := by
    rw [enterLineIfDue_of_atLineStart rfl]
    exact congrArg entered hy
  rw [next, next, h, hdue]

/-- A scanner at the seam does next what one does that starts a line in the other text. -/
theorem AtSeam.exists_next (h : s.AtSeam v z) :
    ∃ y : Scanner, v.LeftOf y.rest ∧ (s.startLine y.rest).SameBlocks y ∧ z.next = y.next := by
  obtain ⟨y, ⟨hleft, hsame⟩, hentered⟩ := h
  exact ⟨y.startLine y.rest, hleft, hsame.startLine y.rest y.rest,
    next_eq_of_entered hentered hsame.atLineStart⟩

theorem next_stays (hs : s.rest.EndsLine) (h : (s.extend v).next = (.ok token, z))
    (hz : v.length < z.rest.length) : ∃ u, s.Stays token u := by
  rcases exists_entered_of_next hs h with ⟨y, hends, hstart, -, hextend⟩ | ⟨-, hseam⟩
  · rw [next_of_enterLineIfDue_eq (hextend v)] at h
    obtain ⟨u, hu⟩ := next_stays_of_atLineStart hends hstart h hz
    exact ⟨u, hu.rest, fun b => (next_of_enterLineIfDue_eq (hextend b)).trans (hu.next b)⟩
  · obtain ⟨y, hleft, -, hnext⟩ := (hseam v).exists_next
    have hle := y.rest_next_suffix.length_le
    rw [← hnext, h] at hle
    exact absurd (hle.trans (length_leftOf_le hleft)) hz.not_ge

/-! ## Runs -/

/-- A run that does not reach the cut is a run over each text that begins in the same way. -/
theorem Steps.stay (h : (s.extend v).Steps tokens z) (hs : s.rest.EndsLine)
    (hz : v.length < z.rest.length) :
    ∃ y : Scanner, y.rest.EndsLine ∧ z = y.extend v ∧
      ∀ b, (s.extend b).Steps tokens (y.extend b) := by
  induction h with
  | refl => exact ⟨s, hs, rfl, fun _ => .refl⟩
  | @snoc u z tokens token before hnext ih =>
    have hle := u.rest_next_suffix.length_le
    rw [hnext] at hle
    obtain ⟨x, hx, rfl, hsteps⟩ := ih (Nat.lt_of_lt_of_le hz hle)
    obtain ⟨y, hy⟩ := next_stays hx hnext hz
    cases (hy.next v).symm.trans hnext
    exact ⟨y, hy.rest, rfl, fun b => .snoc (hsteps b) (hy.next b)⟩

end Scanner

end Verbatim
