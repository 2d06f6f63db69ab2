import Verbatim.Proofs.Layout.Markers
import Verbatim.Proofs.TabSize.Blocks
import Verbatim.Scanner.Ledger

/-!
# The ledger of a scanner

A scanner with a ledger takes the same steps as one that has its blocks by their form. It adds to
what is due where the other sets it anew, which is the same as nothing is due at the start of a
line; that is why it never comes to have both markers due, and the column of the module stays on
the ground of its stack.
-/

namespace Verbatim

namespace Scanner

/-- The blocks of the scanner in plain variables. -/
def ledger (s : Scanner) : Ledger where
  stack := s.columns ++ [0]
  indentDue := s.scheduled = .indent
  dedentsDue := s.dueDedents
  markerOffset := s.markerOffset

variable {s u : Scanner} {b : Blocks}

theorem ledger_eq_of_blocks (h : u.blocks = s.blocks) : u.ledger = s.ledger := by
  simp only [blocks, Blocks.mk.injEq] at h
  obtain ⟨-, hcolumns, hscheduled, hoffset⟩ := h
  rw [ledger, ledger, dueDedents, dueDedents, hcolumns, hscheduled, hoffset]

theorem blocks_keep (kind : TriviaKind) (n : Nat) : (s.keep kind n).blocks = s.blocks := by
  unfold keep
  split <;> rfl

theorem ledger_of_dedents {n : Nat} (h : s.scheduled = .dedents n) :
    s.ledger = ⟨s.columns ++ [0], false, n, s.markerOffset⟩ := by
  rw [ledger, dueDedents, h]
  rfl

theorem top_ledger (s : Scanner) : s.ledger.top = s.column := by
  rw [Ledger.top, ledger, column]
  cases s.columns <;> rfl

/-! ## The start of a line -/

/-- The ground of the stack is never taken off, as no column is less than its own. -/
theorem closeDeeper_columns (column due : Nat) (columns : List Nat) :
    Ledger.closeDeeper column (columns ++ [0]) due =
      (columns.dropWhile (column < ·) ++ [0],
        due + (columns.length - (columns.dropWhile (column < ·)).length)) := by
  induction columns generalizing due with
  | nil => simp [Ledger.closeDeeper]
  | cons level columns ih =>
    rw [List.cons_append, Ledger.closeDeeper]
    split
    · next hdeeper =>
      have hle := (columns.dropWhile_suffix (p := (column < ·))).length_le
      rw [ih, List.dropWhile_cons_of_pos (by simpa using hdeeper), List.length_cons]
      congr 1
      omega
    · next hstays =>
      rw [List.dropWhile_cons_of_neg (by simpa using hstays), Nat.sub_self]
      rfl

theorem measure_ledger (h : s.scheduled = .dedents 0) (column : Nat) :
    s.ledger.measure column s.offset = ((s.measure column).1, (s.measure column).2.ledger) := by
  rw [Ledger.measure, top_ledger, Scanner.measure, ledger_of_dedents h]
  split
  · rfl
  · next hnotDeeper =>
    split
    · dsimp only
      rw [closeDeeper_columns]
      generalize s.columns.dropWhile (column < ·) = columns
      have htop : (columns ++ [0]).headD 0 = columns.headD 0 := by cases columns <;> rfl
      simp only [Ledger.top, htop, Nat.zero_add]
      split
      · rfl
      · rfl
    · next hnotShallower =>
      -- the line has the column of the innermost block, and nothing is closed
      have hcolumn : s.column = column := by omega
      have hsame : s.columns.dropWhile (column < ·) = s.columns := by
        rw [← hcolumn, Scanner.column]
        cases s.columns with
        | nil => rfl
        | cons level columns => exact List.dropWhile_cons_of_neg (by simp)
      have htop : s.columns.headD 0 = column := hcolumn
      dsimp only
      rw [hsame, if_pos htop, Nat.sub_self]
      rfl

theorem close_ledger (h : s.scheduled = .dedents 0) :
    s.ledger.close s.offset = s.closeBlocks.ledger := by
  have hlevels : (s.columns ++ [0]).length - 1 = s.columns.length := by simp
  rw [closeBlocks, Ledger.close, ledger_of_dedents h]
  dsimp only
  rw [hlevels]
  split
  · next hnone => rw [if_pos (List.length_eq_zero_iff.mp hnone), ledger_of_dedents h]
  · next hsome =>
    rw [if_neg (mt List.length_eq_zero_iff.mpr hsome), List.drop_left, Nat.zero_add]
    rfl

theorem Ledger.enterLine_succ (n : Nat) (l : Ledger) (s : Scanner) :
    l.enterLine (n + 1) s =
      match Text.lineBreakLength s.passLine.rest with
      | 0 =>
        if s.passLine.rest.isEmpty then (.ok (), l.close s.passLine.offset, s.passLine)
        else
          let (outcome, l) :=
            l.measure (columnAfter s.passLine.tabSize (blanks s.rest)) s.passLine.offset
          (outcome, l, s.passLine)
      | k + 1 => l.enterLine n (s.passLine.keep .newline (k + 1)) := rfl

theorem enterLine_ledger (n : Nat) (hb : b.tabSize = s.tabSize) (h : s.scheduled = .dedents 0) :
    s.ledger.enterLine n (s.withBlocks b) =
      ((enterLine n s).1, (enterLine n s).2.ledger, (enterLine n s).2.withBlocks b) := by
  induction n generalizing s with
  | zero => rfl
  | succ n ih =>
    have hline := s.sameBlocks_passLine
    have hscheduled := hline.scheduled.trans h
    have hledger : s.passLine.ledger = s.ledger :=
      ledger_eq_of_blocks ((blocks_keep .comment _).trans (blocks_keep .whitespace _))
    have hrest : (s.passLine.withBlocks b).rest = s.passLine.rest := rfl
    rw [Ledger.enterLine_succ, Scanner.enterLine_succ, passLine_withBlocks, hrest, ← hledger]
    rcases hlength : Text.lineBreakLength s.passLine.rest with _ | k
    · by_cases hend : s.passLine.rest.isEmpty = true
      · simp only [hend, if_true]
        rw [← close_ledger hscheduled, withBlocks_closeBlocks]
        rfl
      · have hcolumn : columnAfter (s.passLine.withBlocks b).tabSize (blanks (s.withBlocks b).rest) =
            columnAfter s.passLine.tabSize (blanks s.rest) :=
          congrArg (columnAfter · _) (hb.trans hline.tabSize.symm)
        have hmeasure := measure_ledger hscheduled (columnAfter s.passLine.tabSize (blanks s.rest))
        simp only [hend, if_false, Bool.false_eq_true]
        rw [hcolumn, withBlocks_measure]
        exact congrArg (fun measured => (measured.1, measured.2, s.passLine.withBlocks b)) hmeasure
    · have hkeep := s.passLine.sameBlocks_keep .newline (k + 1)
      have hcalled := ih (hb.trans (hline.trans hkeep).tabSize.symm) (hkeep.scheduled.trans hscheduled)
      rw [ledger_eq_of_blocks (blocks_keep .newline (k + 1)), ← keep_withBlocks] at hcalled
      exact hcalled

/-! ## Steps -/

/-- Nothing is due at the start of a line. -/
theorem enterLineIfDue_ledger (hb : b.tabSize = s.tabSize)
    (h : s.atLineStart = true → s.scheduled = .dedents 0) :
    s.ledger.enterLineIfDue (s.withBlocks b) =
      (s.enterLineIfDue.1, s.enterLineIfDue.2.ledger, s.enterLineIfDue.2.withBlocks b) := by
  have hstart : (s.withBlocks b).atLineStart = s.atLineStart := rfl
  rw [Ledger.enterLineIfDue, enterLineIfDue, hstart]
  split
  · next hdue => exact enterLine_ledger (s := { s with atLineStart := false }) _ hb (h hdue)
  · rfl

theorem finish_ledger (h : s.scheduled = .dedents 0) :
    s.ledger.finish (s.withBlocks b) =
      (s.finish.1, s.finish.2.ledger, s.finish.2.withBlocks b) := by
  have hoffset : (s.withBlocks b).offset = s.offset := rfl
  rw [Ledger.finish, hoffset, close_ledger h]
  rcases hcolumns : s.columns with _ | ⟨column, outer⟩
  · have hfinish : s.finish = s.emit .endOfFile 0 := by rw [finish, hcolumns]
    rw [closeBlocks, if_pos hcolumns, hfinish, ledger_of_dedents h]
    exact congrArg (fun l => (_, l, _)) (ledger_of_dedents h).symm
  · rw [finish, closeBlocks, hcolumns, if_neg (List.cons_ne_nil _ _)]
    rfl

theorem scanToken_ledger (h : s.scheduled = .dedents 0) :
    s.ledger.scanToken (s.withBlocks b) =
      (s.scanToken.1, s.scanToken.2.ledger, s.scanToken.2.withBlocks b) := by
  have hrest : (s.withBlocks b).rest = s.rest := rfl
  rw [Ledger.scanToken, hrest]
  rcases hs : s.rest with _ | ⟨c, t⟩
  · have hfinish : s.scanToken = s.finish := by rw [scanToken, hs]
    rw [hfinish]
    exact finish_ledger h
  · have hne : s.rest ≠ [] := by simp [hs]
    rw [scanToken_withBlocks hne, ← ledger_eq_of_blocks (blocks_scanToken hne)]
    rfl

/-- A step with the ledger of a scanner gives what a step of the scanner gives, and the ledger of
the scanner after it, whatever blocks the scanner at hand has itself. -/
theorem next_ledger (hb : b.tabSize = s.tabSize)
    (h : s.atLineStart = true → s.scheduled = .dedents 0) :
    s.ledger.next (s.withBlocks b) = (s.next.1, s.next.2.ledger, s.next.2.withBlocks b) := by
  rw [Ledger.next, enterLineIfDue_ledger hb h, next]
  rcases s.enterLineIfDue with ⟨outcome, u⟩
  cases outcome with
  | error error => rfl
  | ok a =>
    cases a
    dsimp only
    cases hscheduled : u.scheduled with
    | indent =>
      have hledger : u.ledger = ⟨u.columns ++ [0], true, 0, u.markerOffset⟩ := by
        rw [ledger, dueDedents, hscheduled]
        rfl
      rw [hledger]
      rfl
    | dedents n =>
      rw [ledger_of_dedents hscheduled]
      cases n with
      | zero =>
        have hpassed := blocks_passTrivia u
        have hdue : u.passTrivia.scheduled = .dedents 0 :=
          (congrArg Blocks.scheduled hpassed).trans hscheduled
        have hscan := scanToken_ledger (b := b) hdue
        rw [ledger_eq_of_blocks hpassed, ledger_of_dedents hscheduled, ← passTrivia_withBlocks]
          at hscan
        exact hscan
      | succ n => rfl

/-! ## Any number of steps -/

theorem tabSize_measure (s : Scanner) (column : Nat) :
    (s.measure column).2.tabSize = s.tabSize := by
  unfold measure
  dsimp only
  split
  · rfl
  · split <;> rfl

theorem tabSize_closeBlocks (s : Scanner) : s.closeBlocks.tabSize = s.tabSize := by
  unfold closeBlocks
  split <;> rfl

theorem tabSize_enterLine (n : Nat) (s : Scanner) : (enterLine n s).2.tabSize = s.tabSize := by
  induction n generalizing s with
  | zero => rfl
  | succ n ih =>
    have hline := s.sameBlocks_passLine.tabSize
    rw [enterLine_succ]
    split
    · split
      · exact (tabSize_closeBlocks _).trans hline
      · exact (tabSize_measure _ _).trans hline
    · exact (ih _).trans ((s.passLine.sameBlocks_keep .newline _).tabSize.trans hline)

theorem tabSize_scanToken (s : Scanner) : s.scanToken.2.tabSize = s.tabSize := by
  rcases hs : s.rest with _ | ⟨c, t⟩
  · rw [scanToken, hs]
    dsimp only
    rw [finish]
    split
    · rfl
    · exact tabSize_closeBlocks s
  · exact congrArg Blocks.tabSize (blocks_scanToken (by simp [hs]))

theorem tabSize_next (s : Scanner) : s.next.2.tabSize = s.tabSize := by
  have henter : s.enterLineIfDue.2.tabSize = s.tabSize := by
    unfold enterLineIfDue
    split
    · exact tabSize_enterLine _ { s with atLineStart := false }
    · rfl
  rw [next]
  rcases hdue : s.enterLineIfDue with ⟨outcome, u⟩
  rw [hdue] at henter
  cases outcome with
  | error error => exact henter
  | ok a =>
    dsimp only at henter ⊢
    split
    · exact henter
    · exact henter
    · have hpassed := congrArg Blocks.tabSize (blocks_passTrivia u)
      exact (tabSize_scanToken _).trans (hpassed.trans henter)

def trace : Nat → Scanner → List (Step Token)
  | 0, _ => []
  | n + 1, s => s.next :: trace n s.next.2

theorem steady_of_mem_trace {n : Nat} {step : Step Token} (h : s.Steady)
    (hmem : step ∈ s.trace n) : step.2.Steady := by
  induction n generalizing s with
  | zero => cases hmem
  | succ n ih =>
    have hnext : s.next.2.Steady := h.of_turn h.turn
    rcases List.mem_cons.mp hmem with rfl | hmem
    · exact hnext
    · exact ih hnext hmem

theorem trace_ledger (h : s.Steady) (hb : b.tabSize = s.tabSize) (n : Nat) :
    s.ledger.trace n (s.withBlocks b) =
      (s.trace n).map fun step => (step.1, step.2.ledger) := by
  induction n generalizing s with
  | zero => rfl
  | succ n ih =>
    have hnext := next_ledger hb fun hstart => (h.lineStart hstart).1
    have hsteady : s.next.2.Steady := h.of_turn h.turn
    rw [Ledger.trace, hnext, ih hsteady (hb.trans (tabSize_next s).symm)]
    rfl

end Scanner

namespace Ledger

/-- What the ledger does not have by its form. -/
structure Lawful (l : Ledger) : Prop where
  ground : l.stack.getLast? = some 0
  decreasing : l.stack.Pairwise (· > ·)
  notBoth : ¬(l.indentDue = true ∧ 0 < l.dedentsDue)

theorem lawful_of_steady {s : Scanner} (h : s.Steady) : s.ledger.Lawful where
  ground := List.getLast?_concat
  decreasing := h.columns
  notBoth := by
    rintro ⟨hindent, -⟩
    exact h.noIndent (of_decide_eq_true hindent)

/-- Any number of steps over a source, also after some that failed, give the same with a ledger as
without one, and after each of them the ledger is lawful and that of the scanner. -/
theorem trace_start (options : Options) (t : Text) {b : Scanner.Blocks}
    (hb : b.tabSize = options.effectiveTabSize) (n : Nat) :
    start.trace n ((Scanner.ofText options t).withBlocks b) =
        ((Scanner.ofText options t).trace n).map (fun step => (step.1, step.2.ledger)) ∧
      ∀ step ∈ start.trace n ((Scanner.ofText options t).withBlocks b), step.2.Lawful := by
  have hsteady := Scanner.steady_ofText options t
  have htrace := Scanner.trace_ledger hsteady hb n
  refine ⟨htrace, fun step hmem => ?_⟩
  obtain ⟨other, hother, rfl⟩ := List.mem_map.mp (htrace ▸ hmem)
  exact lawful_of_steady (Scanner.steady_of_mem_trace hsteady hother)

end Ledger

end Verbatim
