import Verbatim.Proofs.BlankLines.Line
import Verbatim.Proofs.Breaks
import Verbatim.Proofs.Concat.Run

/-!
# A run from the seam on

At the seam the blocks of the first text may still be open. The first line of the other text that
is not blank closes them all, since it opens no block in its own text and so has no indentation.
From there on the run gives the tokens of the other text.
-/

namespace Verbatim

open Text (EndsLine lineBreakLength)

namespace Scanner

variable {s u w z : Scanner} {b : Text} {columns : List Nat}

/-! ## A line that closes all blocks -/

/-- The scanner inside other blocks. -/
def within (columns : List Nat) (s : Scanner) : Scanner :=
  { s with columns }

theorem rest_within : (s.within columns).rest = s.rest := rfl

theorem keep_within (kind : TriviaKind) (n : Nat) :
    (s.within columns).keep kind n = (s.keep kind n).within columns := by
  unfold keep
  split <;> rfl

theorem passLine_within : (s.within columns).passLine = s.passLine.within columns := by
  rw [passLine, keep_within, keep_within]
  rfl

/-- Inside other blocks the scanner does the same, but closes them all. -/
def Outdents (columns : List Nat) (step step' : Step Unit) : Prop :=
  ∀ u, step = (.ok (), u) → u.scheduled ≠ .indent →
    u.scheduled = .dedents 0 ∧ ∃ markerOffset, step' =
      (.ok (), { u with scheduled := .dedents columns.length, markerOffset })

theorem outdents_closeBlocks (hnone : s.columns = []) (hdue : s.scheduled = .dedents 0) :
    Outdents columns (.ok (), s.closeBlocks) (.ok (), (s.within columns).closeBlocks) := by
  intro u hu _
  rw [closeBlocks, if_pos hnone] at hu
  cases hu
  refine ⟨hdue, ?_⟩
  cases columns with
  | nil =>
    refine ⟨s.markerOffset, ?_⟩
    rw [closeBlocks, if_pos (by rfl), List.length_nil, ← hdue, within, ← hnone]
  | cons column outer =>
    refine ⟨s.offset, ?_⟩
    rw [closeBlocks, if_neg (by simp [within]), hnone]
    rfl

theorem outdents_measure (hnone : s.columns = []) (hpos : ∀ column ∈ columns, 0 < column)
    (column : Nat) :
    Outdents columns (s.measure column) ((s.within columns).measure column) := by
  intro u hu hindent
  have hzero : column = 0 := by
    by_contra hne
    have hdeeper : s.column < column := by
      rw [Scanner.column, hnone]
      exact Nat.pos_of_ne_zero hne
    rw [measure, if_pos hdeeper] at hu
    cases hu
    exact hindent rfl
  subst hzero
  have hall : columns.dropWhile (0 < ·) = [] := by
    simpa [List.dropWhile_eq_nil_iff] using hpos
  rw [measure, if_neg (Nat.not_lt_zero _)] at hu ⊢
  simp only [hnone, List.dropWhile_nil, List.length_nil, List.headD_nil, if_true] at hu
  cases hu
  refine ⟨rfl, s.offset, ?_⟩
  simp [within, hall]

theorem entered_outdents (hnone : s.columns = []) (hdue : s.scheduled = .dedents 0)
    (hpos : ∀ column ∈ columns, 0 < column) :
    Outdents columns s.entered (s.within columns).entered := by
  induction hn : s.rest.length using Nat.strong_induction_on generalizing s with
  | _ n ih =>
    have hsame := s.sameBlocks_passLine
    have hnone' := hsame.columns.trans hnone
    have hdue' := hsame.scheduled.trans hdue
    have hline : (s.within columns).passLine.rest = s.passLine.rest := by
      rw [passLine_within, rest_within]
    cases hlength : lineBreakLength s.passLine.rest with
    | zero =>
      by_cases hend : s.passLine.rest = []
      · rw [entered_end hend, entered_end (hline.trans hend), passLine_within]
        exact outdents_closeBlocks hnone' hdue'
      · rw [entered_line hlength hend, entered_line (hline ▸ hlength) (hline ▸ hend),
          passLine_within]
        exact outdents_measure hnone' hpos _
    | succ k =>
      have hlt := s.length_rest_newline_lt hlength
      have hkeep := sameBlocks_keep s.passLine .newline (k + 1)
      have hlength' : lineBreakLength (s.within columns).passLine.rest = k + 1 := by
        rw [hline, hlength]
      rw [entered_newline hlength', entered_newline hlength, passLine_within, keep_within]
      exact ih _ (hn ▸ hlt) (hkeep.columns.trans hnone') (hkeep.scheduled.trans hdue') rfl

/-! ## The markers of the closed blocks -/

theorem scans_dedents {tokens : List Token} {failure : Option LexicalError}
    (h : s.Scans tokens failure) (hstart : s.atLineStart = false)
    (hdue : s.scheduled = .dedents 0) (n : Nat) :
    ({ s with scheduled := .dedents n } : Scanner).Scans
      (List.replicate n (s.marker .dedent) ++ tokens) failure := by
  induction n with
  | zero =>
    rw [← hdue]
    exact h
  | succ n ih =>
    have hnext : ({ s with scheduled := .dedents (n + 1) } : Scanner).next =
        (.ok (s.marker .dedent), { s with scheduled := .dedents n }) :=
      next_eq_of_atLineStart hstart
    exact .step hnext (by simp [marker]) ih

theorem Scans.of_next_eq {tokens : List Token} {failure : Option LexicalError}
    (h : s.Scans tokens failure) (hnext : u.next = s.next) : u.Scans tokens failure := by
  cases h with
  | fault h => exact .fault (hnext.trans h)
  | done h hlast => exact .done (hnext.trans h) hlast
  | step h hkind hrest => exact .step (hnext.trans h) hkind hrest

/-! ## The lines of the other text -/

/-- The line feed that ends the first text's last line break is a blank line of the other text. -/
theorem entered_leftOf {r : Text} (h : Text.LeftOf s.rest r) :
    ∃ v, s.entered = v.entered ∧ v.rest = r ∧ s.SameBlocks v := by
  rcases h with rfl | h
  · exact ⟨s, rfl, rfl, .refl s⟩
  · have hblank : Text.BlankLine ['\n'] := .blank (w := []) (by simp)
    exact entered_blankLine hblank h

/-- What two scanners have passed does not matter to what they do next. -/
theorem SameBlocks.follows (h : s.SameBlocks u) (hrest : u.rest = s.rest) :
    Follows ['\n'] [] False s u where
  breaks := ⟨by decide, .inl rfl⟩
  rest := by rw [Text.withBreaks_self, hrest]
  tabSize := h.tabSize
  columns := h.columns
  brackets := congrArg (List.map Prod.fst) h.brackets
  scheduled := h.scheduled
  atLineStart := h.atLineStart
  place := False.elim
  waiting := False.elim

theorem Crosses.follows {v : Scanner} (h : s.Crosses b w) (hrest : v.rest = w.rest)
    (htabSize : s.tabSize = v.tabSize) (hcolumns : v.columns = [])
    (hbrackets : s.brackets = v.brackets) (hdue : s.scheduled = v.scheduled)
    (hstart : s.atLineStart = v.atLineStart) :
    Follows ['\n'] [] False v (w.within []) := by
  have hsame : v.SameBlocks (w.within []) :=
    { tabSize := h.same.tabSize.trans htabSize
      columns := hcolumns.symm
      brackets := h.same.brackets.trans hbrackets
      scheduled := h.same.scheduled.trans hdue
      atLineStart := h.same.atLineStart.trans hstart }
  exact hsame.follows hrest.symm

theorem Follows.entered {s' : Scanner} {br source : Text} {tracked : Prop}
    (h : Follows br source tracked s s') :
    StepFollows br source tracked (fun _ _ => True) s.entered s'.entered :=
  h.enterLine _ _ (Nat.lt_succ_self _) (Nat.lt_succ_self _)

theorem Scans.exists_head {tokens : List Token} (h : s.Scans tokens none) :
    ∃ token u, s.next = (.ok token, u) ∧ token ∈ tokens.head? := by
  cases h with
  | done hnext => exact ⟨_, _, hnext, rfl⟩
  | step hnext => exact ⟨_, _, hnext, rfl⟩

/-- Two runs that follow one another with the same line breaks have the same tokens. -/
theorem Scans.words_of_follows {tokens : List Token} (h : s.Scans tokens none)
    (hu : Follows ['\n'] [] False s u) :
    ∃ tokens', u.Scans tokens' none ∧
      tokens'.map Relabelling.words.token = tokens.map Relabelling.words.token := by
  have hrun := scans_run (u.load + 1) u (Nat.lt_succ_self _)
  generalize (u.run (u.load + 1)).tokens = tokens' at hrun
  generalize (u.run (u.load + 1)).failure = failure' at hrun
  obtain ⟨htokens, hfailure⟩ := h.follows hrun hu
  cases hfailure
  refine ⟨tokens', hrun, ?_⟩
  clear hrun h
  induction htokens with
  | nil => rfl
  | cons htoken _ ih =>
    rw [List.map_cons, List.map_cons, ih]
    simp [Relabelling.words, htoken.kind, htoken.text]

theorem scheduled_ne_indent {tokens : List Token} (h : s.Scans tokens none)
    (hstart : s.atLineStart = false) (hfirst : ∀ t ∈ tokens.head?, t.kind ≠ .indent) :
    s.scheduled ≠ .indent := by
  intro hindent
  obtain ⟨token, u, hnext, hmem⟩ := h.exists_head
  rw [next_eq_of_atLineStart hstart, hindent] at hnext
  cases hnext
  exact hfirst _ hmem rfl

/-- If there were no blocks to close, the scanner would enter the first line of the other text as it
does without the first text. -/
theorem Crosses.entered {options : Options} {tokens : List Token}
    (h : ({ s with atLineStart := false } : Scanner).Crosses b w) (hsteady : s.Steady)
    (hstart : s.atLineStart = true) (htabSize : s.tabSize = options.effectiveTabSize)
    (hscans : (ofText options b).Scans tokens none)
    (hfirst : ∀ t ∈ tokens.head?, t.kind ≠ .indent) :
    ∃ x y, x.Scans tokens none ∧ Follows ['\n'] [] False x y ∧ x.scheduled ≠ .indent ∧
      x.atLineStart = false ∧ (w.within []).entered = (.ok (), y) := by
  obtain ⟨hdue, -, hbrackets⟩ := hsteady.lineStart hstart
  obtain ⟨token, _, hnext, -⟩ := hscans.exists_head
  have hok := enterLineIfDue_of_next hnext
  have hxstart := (ofText options b).atLineStart_enterLineIfDue
  rcases hx : (ofText options b).enterLineIfDue with ⟨result, x⟩
  rw [hx] at hok hxstart
  obtain rfl : result = .ok () := hok
  have hxscans := hscans.of_next_eq (next_of_enterLineIfDue_eq hx).symm
  obtain ⟨v, hv, hrest, hsame⟩ :=
    entered_leftOf (s := { ofText options b with atLineStart := false }) h.rest
  rw [enterLineIfDue_of_atLineStart rfl, hv] at hx
  have hstep := (h.follows hrest (htabSize.trans hsame.tabSize.symm) hsame.columns
    (hbrackets.trans hsame.brackets.symm) (hdue.trans hsame.scheduled.symm)
    hsame.atLineStart.symm).entered
  rw [hx] at hstep
  generalize (w.within []).entered = step at hstep
  cases hstep with
  | @ok _ _ _ y _ follows =>
    exact ⟨x, y, hxscans, follows, scheduled_ne_indent hxscans hxstart hfirst, hxstart, rfl⟩

theorem Steady.columns_pos (h : s.Steady) : ∀ column ∈ s.columns, 0 < column := by
  intro column hmem
  exact (List.pairwise_append.mp h.columns).2.2 column hmem 0 (by simp)

/-- From the seam on there is a marker for each open block, and then the tokens of the other
text. -/
theorem AtSeam.scans {options : Options} {tokens : List Token} (hz : s.AtSeam b z)
    (hsteady : s.Steady) (hstart : s.atLineStart = true)
    (htabSize : s.tabSize = options.effectiveTabSize)
    (hscans : (ofText options b).Scans tokens none)
    (hfirst : ∀ t ∈ tokens.head?, t.kind ≠ .indent) :
    ∃ offset tokens', z.Scans
        (List.replicate s.columns.length ⟨.dedent, .empty offset, [], []⟩ ++ tokens') none ∧
      tokens'.map Relabelling.words.token = tokens.map Relabelling.words.token := by
  obtain ⟨w, hcrosses, hentered⟩ := hz
  obtain ⟨x, y, hx, hfollows, hindent, hxstart, hy⟩ :=
    hcrosses.entered hsteady hstart htabSize hscans hfirst
  have hdue : (w.within []).scheduled = .dedents 0 :=
    hcrosses.same.scheduled.trans (hsteady.lineStart hstart).1
  have hwithin : (w.within []).within s.columns = w := by
    rw [← (hcrosses.same.columns : w.columns = s.columns)]
    rfl
  obtain ⟨hnone, offset, houtdent⟩ := entered_outdents (s := w.within []) rfl hdue
    hsteady.columns_pos y hy (hfollows.scheduled ▸ hindent)
  rw [hwithin] at houtdent
  obtain ⟨tokens', htokens', hwords⟩ := hx.words_of_follows
    (u := { y with scheduled := .dedents 0, markerOffset := offset })
    { hfollows with scheduled := hnone ▸ hfollows.scheduled }
  refine ⟨offset, tokens', ?_, hwords⟩
  have hdedents := scans_dedents htokens' (hfollows.atLineStart.trans hxstart) rfl s.columns.length
  exact hdedents.of_next_eq (next_of_enterLineIfDue_eq (hentered.trans houtdent))

end Scanner

end Verbatim
