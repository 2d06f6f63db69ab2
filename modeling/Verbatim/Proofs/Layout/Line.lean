import Mathlib.Data.List.DropRight
import Verbatim.Proofs.Scanner.Ends

/-!
# Where a logical line begins

The blanks that begin a logical line are kept in front of its first token, after the blank
lines and comment lines that were passed over on the way there. So the column that the
scanner measures at the start of the line can be read off that token.
-/

namespace Verbatim

namespace Trivia

/-- What follows the last line break. -/
def lastLine (ts : List Trivia) : List Trivia :=
  ts.rtakeWhile (·.kind != .newline)

theorem lastLine_append {ts us : List Trivia} (h : ∀ t ∈ us, t.kind ≠ .newline) :
    lastLine (ts ++ us) = lastLine ts ++ us := by
  have hus : ∀ t ∈ us.reverse, (t.kind != .newline) = true := by simpa using h
  rw [lastLine, List.rtakeWhile, List.reverse_append, List.takeWhile_append_of_pos hus,
    List.reverse_append, List.reverse_reverse]
  rfl

theorem lastLine_concat {ts : List Trivia} {t : Trivia} (h : t.kind = .newline) :
    lastLine (ts ++ [t]) = [] :=
  List.rtakeWhile_concat_neg _ _ _ (by simp [h])

end Trivia

/-- The blanks that begin the logical line of its first token. -/
def Token.indentation (token : Token) : Text :=
  Scanner.blanks (Trivia.spelled (Trivia.lastLine token.leading))

/-- The column of the logical line of its first token. -/
def Token.column (tabSize : Nat) (token : Token) : Nat :=
  Scanner.columnAfter tabSize token.indentation

namespace Scanner

/-! ## Blanks -/

theorem drop_length_takeWhile (p : Char → Bool) (t : Text) :
    t.drop (t.takeWhile p).length = t.dropWhile p := by
  conv_lhs => rw [← List.takeWhile_append_dropWhile (p := p) (l := t)]
  exact List.drop_left' (by rw [List.takeWhile_append_dropWhile])

theorem blanks_append {t u : Text} (ht : blanks t = t) (hu : ∀ c ∈ u.head?, isBlank c = false) :
    blanks (t ++ u) = t := by
  rw [blanks, List.takeWhile_append_of_pos (List.takeWhile_eq_self_iff.mp ht)]
  cases u with
  | nil => simp
  | cons c u => simpa using hu c rfl

theorem isBlank_head_dropWhile {t : Text} :
    ∀ c ∈ (t.dropWhile isBlank).head?, isBlank c = false := by
  intro c hc
  have h := List.head?_dropWhile_not isBlank t
  rwa [Option.mem_def.mp hc] at h

/-! ## Moving over trivia -/

/-- The scanner has opened or closed no block and no bracket. -/
structure SameBlocks (s u : Scanner) : Prop where
  tabSize : u.tabSize = s.tabSize
  columns : u.columns = s.columns
  brackets : u.brackets = s.brackets
  scheduled : u.scheduled = s.scheduled
  atLineStart : u.atLineStart = s.atLineStart

theorem SameBlocks.refl (s : Scanner) : s.SameBlocks s :=
  ⟨rfl, rfl, rfl, rfl, rfl⟩

theorem SameBlocks.trans {s u v : Scanner} (h : s.SameBlocks u) (h' : u.SameBlocks v) :
    s.SameBlocks v where
  tabSize := h'.tabSize.trans h.tabSize
  columns := h'.columns.trans h.columns
  brackets := h'.brackets.trans h.brackets
  scheduled := h'.scheduled.trans h.scheduled
  atLineStart := h'.atLineStart.trans h.atLineStart

theorem SameBlocks.symm {s u : Scanner} (h : s.SameBlocks u) : u.SameBlocks s :=
  ⟨h.tabSize.symm, h.columns.symm, h.brackets.symm, h.scheduled.symm, h.atLineStart.symm⟩

theorem sameBlocks_keep (s : Scanner) (kind : TriviaKind) (n : Nat) :
    s.SameBlocks (s.keep kind n) := by
  unfold keep
  split
  · exact .refl s
  · exact ⟨rfl, rfl, rfl, rfl, rfl⟩

theorem rest_keep (s : Scanner) (kind : TriviaKind) (n : Nat) :
    (s.keep kind n).rest = s.rest.drop n := by
  unfold keep
  split
  · next h => simp [h]
  · rfl

/-- The blanks that begin the line, once the scanner is past them. -/
def indentation (s : Scanner) : Text :=
  Trivia.spelled (Trivia.lastLine s.waiting)

/-- The scanner stands behind the blanks that begin a logical line, and the line is not empty. -/
structure AtFirst (s : Scanner) : Prop where
  blank : blanks s.indentation = s.indentation
  rest_ne_nil : s.rest ≠ []
  head : ∀ c ∈ s.rest.head?, isBlank c = false
  noComment : s.rest.head? ≠ some '#'

/-- What the start of a logical line leads to: the end of the text, or a line that is measured. -/
inductive Enters (s : Scanner) : Step Unit → Prop
  | atEnd {u : Scanner} (same : s.SameBlocks u) (rest : u.rest = []) :
      Enters s (.ok (), u.closeBlocks)
  | line {u : Scanner} (same : s.SameBlocks u) (first : u.AtFirst) :
      Enters s (u.measure (columnAfter u.tabSize u.indentation))

theorem Enters.of_sameBlocks {s u : Scanner} {result : Step Unit} (h : s.SameBlocks u)
    (h' : u.Enters result) : s.Enters result := by
  cases h' with
  | atEnd same rest => exact .atEnd (h.trans same) rest
  | line same first => exact .line (h.trans same) first

/-- The blanks at the head of the text are the indentation of a line that they begin. -/
theorem indentation_keep {s : Scanner} (hline : Trivia.lastLine s.waiting = []) :
    (s.keep .whitespace (blanks s.rest).length).indentation = blanks s.rest := by
  obtain ⟨ts, hgathers, hts⟩ := s.gathers_keep .whitespace (blanks s.rest).length
  have hspelled : Trivia.spelled ts = blanks s.rest := by
    have hrest := hgathers.passes.rest
    rw [rest_keep, blanks, drop_length_takeWhile] at hrest
    have hsplit := List.takeWhile_append_dropWhile (p := isBlank) (l := s.rest)
    exact List.append_cancel_right (hrest.symm.trans hsplit.symm)
  rw [indentation, hgathers.waiting, Trivia.lastLine_append (by simp_all), hline, List.nil_append,
    hspelled]

/-- Behind a comment the line breaks or the text ends. -/
theorem commentLength_eq_zero {t : Text}
    (h : Text.lineBreakLength (t.drop (commentLength t)) = 0)
    (hne : t.drop (commentLength t) ≠ []) : commentLength t = 0 := by
  by_contra hcomment
  have hlength : commentLength t = (Text.firstLine t).length := by
    unfold commentLength at hcomment ⊢
    split
    · rfl
    · next hhash => simp [hhash] at hcomment
  rw [hlength, Text.firstLine, drop_length_takeWhile] at h hne
  have hhead := List.head?_dropWhile_not (fun c => !Text.isLineBreak c) t
  cases hdrop : t.dropWhile fun c => !Text.isLineBreak c with
  | nil => exact hne hdrop
  | cons c u =>
    rw [hdrop] at h hhead
    have hpos := lineBreakLength_pos (t := u) (c := c) (by simpa using hhead)
    omega

theorem commentLength_pos {t : Text} (h : t.head? = some '#') : 0 < commentLength t := by
  obtain ⟨u, rfl⟩ := List.head?_eq_some_iff.mp h
  rw [commentLength, if_pos h]
  simp [Text.firstLine, Text.isLineBreak]

theorem enters_enterLine (n : Nat) (s : Scanner) (hfuel : s.rest.length < n)
    (hline : Trivia.lastLine s.waiting = []) : s.Enters (enterLine n s) := by
  induction n generalizing s with
  | zero => omega
  | succ n ih =>
    unfold enterLine
    dsimp only
    have hsame := s.sameBlocks_keep .whitespace (blanks s.rest).length
    have hindentation := indentation_keep hline
    have hrest := s.rest_keep .whitespace (blanks s.rest).length
    generalize s.keep .whitespace (blanks s.rest).length = u at hsame hindentation hrest ⊢
    have hsame' := hsame.trans (u.sameBlocks_keep .comment (commentLength u.rest))
    have hrest' := u.rest_keep .comment (commentLength u.rest)
    split
    · next hbreak =>
      split
      · next hend => exact .atEnd hsame' (by simpa using hend)
      · next hend =>
        rw [hrest'] at hbreak hend
        have hcomment := commentLength_eq_zero hbreak (by simpa using hend)
        rw [hcomment, List.drop_zero] at hend
        rw [hcomment, keep, if_pos rfl, ← hindentation]
        refine .line hsame ⟨?_, by simpa using hend, ?_, ?_⟩
        · rw [hindentation]
          exact List.takeWhile_idem
        · rw [hrest, blanks, drop_length_takeWhile]
          exact isBlank_head_dropWhile
        · intro hhash
          have hpos := commentLength_pos hhash
          omega
    · next k hbreak =>
      refine .of_sameBlocks (hsame'.trans (sameBlocks_keep _ .newline (k + 1))) (ih _ ?_ ?_)
      · have hpos : (u.rest.drop (commentLength u.rest)).length ≠ 0 := by
          intro hnil
          rw [hrest', List.length_eq_zero_iff.mp hnil] at hbreak
          cases hbreak
        rw [rest_keep, hrest', List.length_drop]
        rw [hrest] at hpos ⊢
        simp only [List.length_drop] at hpos ⊢
        omega
      · rw [keep, if_neg (by omega)]
        exact Trivia.lastLine_concat rfl

/-! ## Trivia in front of a token -/

theorem triviaAhead?_eq_some {s : Scanner} {kind : TriviaKind} {n : Nat}
    (h : s.triviaAhead? = some (kind, n)) :
    0 < n ∧ s.rest ≠ [] ∧ (s.brackets = [] → kind ≠ .newline) := by
  unfold triviaAhead? at h
  split at h
  · cases h
  · next c t hrest =>
    split at h
    · next hblank =>
      cases h
      exact ⟨by simp [hrest, blanks, hblank], by simp [hrest], by simp⟩
    · split at h
      · next hhash =>
        split at h
        · cases h
        · cases h
          exact ⟨by simp [hrest, hhash, Text.firstLine, Text.isLineBreak], by simp [hrest], by simp⟩
      · split at h
        · split at h
          · cases h
          · cases h
            exact ⟨by omega, by simp [hrest], by simp⟩
        · split at h
          · next hbreak =>
            cases h
            rw [Bool.and_eq_true] at hbreak
            refine ⟨?_, by simp [hrest], fun hbrackets => by simp [hbrackets] at hbreak⟩
            rw [hrest]
            exact lineBreakLength_pos hbreak.1
          · cases h

/-- The scanner passes over all trivia in front of the next token. -/
structure Settles (s u : Scanner) : Prop where
  gathers : ∃ ts, s.Gathers ts u ∧ (s.brackets = [] → ∀ t ∈ ts, t.kind ≠ .newline)
  same : s.SameBlocks u
  stops : u.triviaAhead? = none

theorem settles_passTriviaUpTo (n : Nat) (s : Scanner) (h : s.rest.length ≤ n) :
    s.Settles (passTriviaUpTo n s) := by
  induction n generalizing s with
  | zero =>
    have hrest : s.rest = [] := List.length_eq_zero_iff.mp (by omega)
    refine ⟨⟨[], .refl s, by simp⟩, .refl s, ?_⟩
    rw [passTriviaUpTo, triviaAhead?, hrest]
  | succ n ih =>
    unfold passTriviaUpTo
    split
    · next kind length hahead =>
      obtain ⟨hpos, hne, hkind⟩ := triviaAhead?_eq_some hahead
      obtain ⟨ts, hgathers, hts⟩ := s.gathers_keep kind length
      have hsame := s.sameBlocks_keep kind length
      have hlength : (s.keep kind length).rest.length ≤ n := by
        have := List.length_pos_iff.mpr hne
        rw [rest_keep, List.length_drop]
        omega
      obtain ⟨⟨us, hgathers', hus⟩, hsame', hstops⟩ := ih _ hlength
      refine ⟨⟨ts ++ us, hgathers.trans hgathers', ?_⟩, hsame.trans hsame', hstops⟩
      intro hbrackets t ht
      rcases List.mem_append.mp ht with ht | ht
      · rw [hts t ht]
        exact hkind hbrackets
      · exact hus (hsame.brackets.trans hbrackets) t ht
    · next hahead => exact ⟨⟨[], .refl s, by simp⟩, .refl s, hahead⟩

theorem settles_passTrivia (s : Scanner) : s.Settles s.passTrivia :=
  settles_passTriviaUpTo _ s (Nat.le_refl _)

/-- The first token of a line has the indentation that was measured, however its line is
continued. -/
theorem AtFirst.blanks_indentation {s u : Scanner} (h : s.AtFirst) (hs : s.Settles u)
    (hbrackets : s.brackets = []) : blanks u.indentation = s.indentation := by
  obtain ⟨ts, hgathers, hts⟩ := hs.gathers
  have happend : u.indentation = s.indentation ++ Trivia.spelled ts := by
    rw [indentation, hgathers.waiting, Trivia.lastLine_append (hts hbrackets),
      Trivia.spelled_append, indentation]
  rw [happend]
  refine blanks_append h.blank fun c hc => h.head c ?_
  rw [hgathers.passes.rest, List.head?_append, Option.mem_def.mp hc]
  rfl

/-! ## Tokens of a line -/

/-- The text is at its end and all blocks are closed, though not all markers are out. -/
structure Ended (s : Scanner) : Prop where
  rest : s.rest = []
  columns : s.columns = []
  atLineStart : s.atLineStart = false
  scheduled : s.scheduled ≠ .indent

/-- A token that is no marker leaves the blocks as they are, and only a line break ends the line,
outside brackets. -/
structure TakesFrom (s : Scanner) (token : Token) (u : Scanner) : Prop where
  isZeroWidth : token.kind.isZeroWidth = false
  leading : token.leading = s.waiting
  tabSize : u.tabSize = s.tabSize
  columns : u.columns = s.columns
  scheduled : u.scheduled = s.scheduled
  waiting : u.waiting = []
  atLineStart : u.atLineStart = (token.kind == .newline)
  brackets : token.kind = .newline → u.brackets = []

theorem ended_finish {s u : Scanner} {token : Token} (hrest : s.rest = [])
    (hstart : s.atLineStart = false) (hscheduled : s.scheduled = .dedents 0)
    (h : s.finish = (.ok token, u)) :
    u.Ended ∧ (token.kind = .dedent ∨ token.kind = .endOfFile) := by
  unfold finish at h
  split at h
  · next hcolumns =>
    cases h
    refine ⟨⟨?_, hcolumns, hstart, ?_⟩, .inr rfl⟩
    · simp [advance, hrest]
    · simp [advance, hscheduled]
  · next column outer hcolumns =>
    cases h
    rw [closeBlocks, if_neg (by simp [hcolumns])]
    exact ⟨⟨hrest, rfl, hstart, by simp⟩, .inl rfl⟩

theorem takesFrom_emit {s v : Scanner} {kind : TokenKind} {n : Nat} {token : Token} {u : Scanner}
    (h : v.emit kind n = (.ok token, u)) (hkind : kind.isZeroWidth = false)
    (hwaiting : v.waiting = s.waiting) (htabSize : v.tabSize = s.tabSize)
    (hcolumns : v.columns = s.columns) (hscheduled : v.scheduled = s.scheduled)
    (hstart : v.atLineStart = (kind == .newline))
    (hbrackets : kind = .newline → v.brackets = []) : s.TakesFrom token u := by
  cases h
  exact ⟨hkind, hwaiting, htabSize, hcolumns, hscheduled, rfl, hstart, hbrackets⟩

theorem takesFrom_lexeme {s u : Scanner} {kind : TokenKind} {n : Nat} {token : Token}
    (hkind : kind.isStructural = false) (hstart : s.atLineStart = false)
    (h : s.lexeme kind n = (.ok token, u)) : s.TakesFrom token u := by
  have hwidth : kind.isZeroWidth = false := by
    cases kind <;> first | rfl | cases hkind
  have hnewline : kind ≠ .newline := by
    rintro rfl
    cases hkind
  have hstart : s.atLineStart = (kind == .newline) := by simp [hstart, hnewline]
  have hemit {v : Scanner} (h : v.emit kind n = (.ok token, u)) (hwaiting : v.waiting = s.waiting)
      (htabSize : v.tabSize = s.tabSize) (hcolumns : v.columns = s.columns)
      (hscheduled : v.scheduled = s.scheduled) (hv : v.atLineStart = s.atLineStart) :
      s.TakesFrom token u :=
    takesFrom_emit h hwidth hwaiting htabSize hcolumns hscheduled (hv.trans hstart)
      fun h => absurd h hnewline
  unfold lexeme at h
  split at h
  · split at h
    · exact hemit h rfl rfl rfl rfl rfl
    · cases h
  · split at h
    · cases h
    · split at h
      · exact hemit h rfl rfl rfl rfl rfl
      · cases h
  · exact hemit h rfl rfl rfl rfl rfl

/-- Inside brackets a line break is trivia. -/
theorem brackets_eq_nil {s : Scanner} {c : Char} {t : Text} (hstops : s.triviaAhead? = none)
    (hrest : s.rest = c :: t) (hbreak : Text.isLineBreak c = true) : s.brackets = [] := by
  have hc : c = '\r' ∨ c = '\n' := by simpa [Text.isLineBreak] using hbreak
  have hblank : isBlank c = false := by rcases hc with rfl | rfl <;> rfl
  have hhash : c ≠ '#' := by rcases hc with rfl | rfl <;> decide
  have hbackslash : c ≠ '\\' := by rcases hc with rfl | rfl <;> decide
  simpa [triviaAhead?, hrest, hblank, hhash, hbackslash, hbreak] using hstops

theorem takesFrom_scanToken {s u : Scanner} {token : Token} (hstops : s.triviaAhead? = none)
    (hstart : s.atLineStart = false) (hne : s.rest ≠ []) (h : s.scanToken = (.ok token, u)) :
    s.TakesFrom token u := by
  unfold scanToken at h
  split at h
  · next hrest => exact absurd hrest hne
  · next c t hrest =>
    split at h
    · exact takesFrom_emit h rfl rfl rfl rfl rfl hstart (by simp)
    · split at h
      · cases h
      · split at h
        · next hbreak =>
          exact takesFrom_emit h rfl rfl rfl rfl rfl rfl fun _ =>
            brackets_eq_nil hstops hrest hbreak
        · split at h
          · next kind n hread =>
            rw [hrest] at hread
            exact takesFrom_lexeme (Lexeme.read_eq_ok hread).1 hstart h
          · cases h

theorem scanToken_eq_ok {s u : Scanner} {token : Token} (hstops : s.triviaAhead? = none)
    (hstart : s.atLineStart = false) (hscheduled : s.scheduled = .dedents 0)
    (h : s.scanToken = (.ok token, u)) :
    s.TakesFrom token u ∨ u.Ended ∧ (token.kind = .dedent ∨ token.kind = .endOfFile) := by
  by_cases hrest : s.rest = []
  · rw [scanToken, hrest] at h
    exact .inr (ended_finish hrest hstart hscheduled h)
  · exact .inl (takesFrom_scanToken hstops hstart hrest h)

end Scanner

end Verbatim
