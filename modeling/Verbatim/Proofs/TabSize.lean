import Verbatim.Proofs.Concat.Tokens
import Verbatim.Proofs.Decision.Run
import Verbatim.Proofs.TabSize.Blocks

/-!
# The width of a tab stop

Two runs over a source with different tab stops may open and close blocks in different places, so
their markers differ. Without the markers they give the same tokens, as long as none of the two
fails: in front of each token both scanners come to the same place. And where the source has no tab
there is nothing to differ.
-/

namespace Verbatim

def Token.isMarker (token : Token) : Bool :=
  token.kind == .indent || token.kind == .dedent

namespace Scanner

variable {s u : Scanner} {b : Blocks} {token : Token} {tokens tokens' : List Token}

/-! ## Without markers -/

def Blocks.outermost : Blocks :=
  ⟨1, [], .dedents 0, 0⟩

/-- The scanner in front of the next lexeme, outside all blocks. -/
def ahead (s : Scanner) : Scanner :=
  s.enterLineIfDue.2.passTrivia.withBlocks .outermost

theorem ahead_withBlocks : (s.withBlocks b).ahead = s.ahead := by
  rw [ahead, ahead, ← passTrivia_withBlocks, ← passTrivia_withBlocks, enterLineIfDue_withBlocks]

theorem ahead_of_inside (h : s.atLineStart = false) :
    s.ahead = s.passTrivia.withBlocks .outermost := by
  rw [ahead, enterLineIfDue, if_neg (by simp [h])]

theorem TakesFrom.not_isMarker (h : s.TakesFrom token u) : token.isMarker = false := by
  have hwidth := h.isZeroWidth
  rw [Token.isMarker]
  cases hkind : token.kind <;> first | rfl | (rw [hkind] at hwidth; cases hwidth)

/-- A lexeme is taken from the scanner in front of it in the same way outside all blocks, and at the
end of the text the markers come first. -/
theorem ahead_of_scanToken (hstart : s.atLineStart = false) (hstops : s.triviaAhead? = none)
    (h : s.scanToken = (.ok token, u)) :
    (token.isMarker = true ∧ u.ahead = s.ahead) ∨
      token.isMarker = false ∧ ∃ w, s.ahead.scanToken = (.ok token, w) ∧ w.ahead = u.ahead := by
  have hahead : s.ahead = s.withBlocks .outermost := by
    rw [ahead_of_inside hstart, passTrivia_of_none hstops]
  by_cases hrest : s.rest = []
  · have hfinish : s.scanToken = s.finish := by
      rw [scanToken, hrest]
    rw [hfinish, finish] at h
    split at h
    · cases h
      refine .inr ⟨rfl, (s.emit .endOfFile 0).2.withBlocks .outermost, ?_, ahead_withBlocks⟩
      have houtside : (s.withBlocks .outermost).scanToken = (s.withBlocks .outermost).finish := by
        rw [scanToken, show (s.withBlocks .outermost).rest = [] from hrest]
      rw [hahead, houtside]
      rfl
    · next column outer hcolumns =>
      cases h
      refine .inl ⟨rfl, ?_⟩
      rw [closeBlocks, if_neg (by simp [hcolumns])]
      exact ahead_withBlocks (s := s) (b := ⟨s.tabSize, [], .dedents outer.length, s.offset⟩)
  · have htakes := takesFrom_scanToken hstops hstart hrest h
    refine .inr ⟨htakes.not_isMarker, u.withBlocks .outermost, ?_, ahead_withBlocks⟩
    rw [hahead, scanToken_withBlocks hrest, h]
    rfl

theorem ahead_of_next (h : s.next = (.ok token, u)) :
    (token.isMarker = true ∧ u.ahead = s.ahead) ∨
      token.isMarker = false ∧ ∃ w, s.ahead.scanToken = (.ok token, w) ∧ w.ahead = u.ahead := by
  have hentered := enterLineIfDue_of_next h
  have hstart := s.atLineStart_enterLineIfDue
  rcases hdue : s.enterLineIfDue with ⟨result, v⟩
  rw [hdue] at hentered hstart
  cases hentered
  have hahead : s.ahead = v.ahead := by
    rw [ahead_of_inside hstart, ahead, hdue]
  rw [next_of_enterLineIfDue_eq hdue, next_eq_of_atLineStart hstart] at h
  rw [hahead]
  split at h
  · cases h
    exact .inl ⟨rfl, ahead_withBlocks (s := v) (b := ⟨v.tabSize, v.columns, .dedents 0, v.markerOffset⟩)⟩
  · next n _ =>
    cases h
    exact .inl ⟨rfl, ahead_withBlocks (s := v) (b := ⟨v.tabSize, v.columns, .dedents n, v.markerOffset⟩)⟩
  · obtain ⟨-, same, stops⟩ := v.settles_passTrivia
    have hstart' : v.passTrivia.atLineStart = false := same.atLineStart.trans hstart
    have hsame : v.passTrivia.ahead = v.ahead := by
      rw [ahead_of_inside hstart', ahead_of_inside hstart, passTrivia_of_none stops]
    rw [← hsame]
    exact ahead_of_scanToken hstart' stops h

/-- The tokens from a scanner on that stands outside all blocks in front of a lexeme. -/
inductive Lexes : Scanner → List Token → Prop
  | done {s u : Scanner} {last : Token} (h : s.scanToken = (.ok last, u))
      (hlast : last.kind = .endOfFile) : Lexes s [last]
  | step {s u : Scanner} {token : Token} {tokens : List Token} (h : s.scanToken = (.ok token, u))
      (hkind : token.kind ≠ .endOfFile) (rest : Lexes u.ahead tokens) : Lexes s (token :: tokens)

theorem Lexes.unique (h : s.Lexes tokens) (h' : s.Lexes tokens') : tokens = tokens' := by
  induction h generalizing tokens' with
  | done hscan hlast =>
    cases h' with
    | done hother =>
      cases hscan.symm.trans hother
      rfl
    | step hother hkind =>
      cases hscan.symm.trans hother
      exact absurd hlast hkind
  | step hscan hkind _ ih =>
    cases h' with
    | done hother hlast =>
      cases hscan.symm.trans hother
      exact absurd hlast hkind
    | step hother _ rest =>
      cases hscan.symm.trans hother
      rw [ih rest]

/-- A run that does not fail gives these tokens and markers between them. -/
theorem Scans.lexes {failure : Option LexicalError} (h : s.Scans tokens failure)
    (hnone : failure = none) : s.ahead.Lexes (tokens.filter (! ·.isMarker)) := by
  induction h with
  | fault => cases hnone
  | done hnext hlast =>
    rcases ahead_of_next hnext with ⟨hmarker, -⟩ | ⟨hmarker, w, hscan, -⟩
    · simp [Token.isMarker, hlast] at hmarker
    · rw [List.filter_cons_of_pos (by simp [hmarker]), List.filter_nil]
      exact .done hscan hlast
  | step hnext hkind _ ih =>
    rcases ahead_of_next hnext with ⟨hmarker, hsame⟩ | ⟨hmarker, w, hscan, hw⟩
    · rw [List.filter_cons_of_neg (by simp [hmarker]), ← hsame]
      exact ih hnone
    · rw [List.filter_cons_of_pos (by simp [hmarker])]
      exact .step hscan hkind (hw ▸ ih hnone)

/-! ## Without tabs -/

variable {k n : Nat}

def withTabSize (k : Nat) (s : Scanner) : Scanner :=
  { s with tabSize := k }

theorem withTabSize_eq (h : u.blocks = s.blocks) :
    u.withTabSize k = u.withBlocks { s.blocks with tabSize := k } := by
  rw [← h]
  rfl

theorem columnAfter_of_not_mem {t : Text} (h : '\t' ∉ t) (k k' : Nat) :
    columnAfter k t = columnAfter k' t := by
  refine List.foldl_ext _ _ _ fun column c hc => ?_
  have hne : c ≠ '\t' := by
    rintro rfl
    exact h hc
  rw [nextColumn, nextColumn, if_neg hne, if_neg hne]

theorem keep_withTabSize (kind : TriviaKind) (n : Nat) :
    (s.withTabSize k).keep kind n = (s.keep kind n).withTabSize k := by
  unfold keep
  split <;> rfl

theorem passLine_withTabSize : (s.withTabSize k).passLine = s.passLine.withTabSize k := by
  rw [passLine, keep_withTabSize, keep_withTabSize]
  rfl

theorem measure_withTabSize (column : Nat) :
    (s.withTabSize k).measure column =
      ((s.measure column).1, (s.measure column).2.withTabSize k) := by
  have hcolumns : (s.withTabSize k).columns = s.columns := rfl
  have hcolumn : (s.withTabSize k).column = s.column := rfl
  unfold measure
  rw [hcolumns, hcolumn]
  dsimp only
  split
  · rfl
  · split <;> rfl

theorem closeBlocks_withTabSize : (s.withTabSize k).closeBlocks = s.closeBlocks.withTabSize k := by
  have hcolumns : (s.withTabSize k).columns = s.columns := rfl
  unfold closeBlocks
  rw [hcolumns]
  split <;> rfl

theorem enterLine_withTabSize (h : '\t' ∉ s.rest) (n : Nat) :
    enterLine n (s.withTabSize k) =
      ((enterLine n s).1, (enterLine n s).2.withTabSize k) := by
  induction n generalizing s with
  | zero => rfl
  | succ n ih =>
    have hrest : (s.passLine.withTabSize k).rest = s.passLine.rest := rfl
    have hblanks : '\t' ∉ blanks s.rest :=
      fun hmem => h ((List.takeWhile_prefix _).subset hmem)
    have hcolumn : columnAfter k (blanks s.rest) = columnAfter s.passLine.tabSize (blanks s.rest) :=
      columnAfter_of_not_mem hblanks _ _
    rw [enterLine_succ, enterLine_succ, passLine_withTabSize, hrest]
    split
    · split
      · rw [closeBlocks_withTabSize]
      · rw [← measure_withTabSize, ← hcolumn]
        rfl
    · rw [keep_withTabSize]
      apply ih
      rw [rest_keep, passLine, rest_keep, rest_keep]
      exact fun hmem =>
        h (List.mem_of_mem_drop (List.mem_of_mem_drop (List.mem_of_mem_drop hmem)))

theorem passTrivia_withTabSize : (s.withTabSize k).passTrivia = s.passTrivia.withTabSize k := by
  rw [withTabSize_eq rfl, passTrivia_withBlocks, withTabSize_eq s.blocks_passTrivia]

theorem scanToken_withTabSize :
    (s.withTabSize k).scanToken = (s.scanToken.1, s.scanToken.2.withTabSize k) := by
  by_cases hrest : s.rest = []
  · have hfinish : s.scanToken = s.finish := by
      rw [scanToken, hrest]
    have hfinish' : (s.withTabSize k).scanToken = (s.withTabSize k).finish := by
      rw [scanToken, show (s.withTabSize k).rest = [] from hrest]
    have hcolumns : (s.withTabSize k).columns = s.columns := rfl
    rw [hfinish, hfinish', finish, finish, hcolumns, closeBlocks_withTabSize]
    split <;> rfl
  · rw [withTabSize_eq rfl, scanToken_withBlocks hrest, withTabSize_eq (blocks_scanToken hrest)]
    rfl

theorem enterLineIfDue_withTabSize (h : '\t' ∉ s.rest) : (s.withTabSize k).enterLineIfDue =
    (s.enterLineIfDue.1, s.enterLineIfDue.2.withTabSize k) := by
  have hstart : (s.withTabSize k).atLineStart = s.atLineStart := rfl
  unfold enterLineIfDue
  rw [hstart]
  split
  · exact enterLine_withTabSize (s := { s with atLineStart := false }) h _
  · rfl

/-- In front of a text without tabs the width of a tab stop does not matter. -/
theorem next_withTabSize (h : '\t' ∉ s.rest) :
    (s.withTabSize k).next = (s.next.1, s.next.2.withTabSize k) := by
  rw [next, next, enterLineIfDue_withTabSize h]
  rcases s.enterLineIfDue with ⟨result, u⟩
  have hscheduled : (u.withTabSize k).scheduled = u.scheduled := rfl
  cases result with
  | error error => rfl
  | ok =>
    dsimp only
    rw [hscheduled]
    split
    · rfl
    · rfl
    · rw [passTrivia_withTabSize, scanToken_withTabSize]

theorem run_withTabSize (h : '\t' ∉ s.rest) (n : Nat) : (s.withTabSize k).run n = s.run n := by
  induction n generalizing s with
  | zero => rfl
  | succ n ih =>
    have hnext := next_withTabSize (k := k) h
    have hrest : '\t' ∉ s.next.2.rest := fun hmem => h (s.rest_next_suffix.subset hmem)
    rcases hstep : s.next with ⟨result, u⟩
    rw [hstep] at hnext hrest
    cases result with
    | error error => rw [run_succ_of_error n hstep, run_succ_of_error n hnext]
    | ok token => rw [run_succ_of_ok n hstep, run_succ_of_ok n hnext, ih hrest]

end Scanner

variable {options options' : Options} {source : Text} {tokens tokens' : List Token}

theorem filter_isMarker_of_tokenize (h : tokenize options source = .ok tokens)
    (h' : tokenize options' source = .ok tokens') :
    tokens.filter (! ·.isMarker) = tokens'.filter (! ·.isMarker) := by
  obtain ⟨hnone, rfl⟩ := TokenRun.tokenize_eq_ok_iff.mp h
  obtain ⟨hnone', rfl⟩ := TokenRun.tokenize_eq_ok_iff.mp h'
  have hlexes := (TokenRun.scans options source).lexes hnone
  have hlexes' := (TokenRun.scans options' source).lexes hnone'
  have hsame : (Scanner.ofText options source).ahead = (Scanner.ofText options' source).ahead :=
    Scanner.ahead_withBlocks (s := Scanner.ofText options' source)
      (b := (Scanner.ofText options source).blocks)
  rw [hsame] at hlexes
  exact hlexes.unique hlexes'

theorem TokenRun.ofText_of_not_mem (h : '\t' ∉ source) :
    TokenRun.ofText options source = TokenRun.ofText options' source :=
  Scanner.run_withTabSize (s := Scanner.ofText options' source) h _

/-- The width of a tab stop matters for the markers of blocks only, and without tabs not even for
them. -/
theorem tabSize_matters_for_blocks (options options' : Options) (source : Text) :
    (∀ tokens tokens', tokenize options source = .ok tokens →
      tokenize options' source = .ok tokens' →
      tokens.filter (! ·.isMarker) = tokens'.filter (! ·.isMarker)) ∧
    ('\t' ∉ source → tokenize options source = tokenize options' source ∧
      ∀ entry : EntryPoint, entry.parse options source = entry.parse options' source) := by
  constructor
  · intro tokens tokens' h h'
    exact filter_isMarker_of_tokenize h h'
  · intro h
    have hrun : TokenRun.ofText options source = TokenRun.ofText options' source :=
      TokenRun.ofText_of_not_mem h
    constructor
    · rw [tokenize, tokenize, hrun]
    · intro entry
      rw [EntryPoint.parse, parseWith, parseWith, hrun]

/-- A block that is indented by a tab and one by blanks, with tab stops of different widths. -/
theorem tabSize_matters_for_blocks_of_tab :
    (∃ tokens tokens', tokenize ⟨8⟩ "if x:\n\ty\n        z\n".toList = .ok tokens ∧
      tokenize ⟨4⟩ "if x:\n\ty\n        z\n".toList = .ok tokens' ∧
      tokens.filter (! ·.isMarker) = tokens'.filter (! ·.isMarker)) ∧
    EntryPoint.module.parse ⟨8⟩ "if x:\n  y".toList =
      EntryPoint.module.parse ⟨4⟩ "if x:\n  y".toList := by
  rcases hwide : tokenize ⟨8⟩ "if x:\n\ty\n        z\n".toList with error | tokens
  · have hok : (tokenize ⟨8⟩ "if x:\n\ty\n        z\n".toList).isOk = true := by decide +kernel
    rw [hwide] at hok
    cases hok
  rcases hnarrow : tokenize ⟨4⟩ "if x:\n\ty\n        z\n".toList with error | tokens'
  · have hok : (tokenize ⟨4⟩ "if x:\n\ty\n        z\n".toList).isOk = true := by decide +kernel
    rw [hnarrow] at hok
    cases hok
  constructor
  · exact ⟨tokens, tokens', rfl, rfl,
      (tabSize_matters_for_blocks ⟨8⟩ ⟨4⟩ _).1 tokens tokens' hwide hnarrow⟩
  · exact ((tabSize_matters_for_blocks ⟨8⟩ ⟨4⟩ _).2 (by decide)).2 .module

end Verbatim
