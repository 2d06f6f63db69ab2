import Verbatim.Proofs.Breaks.Scanner
import Verbatim.Proofs.Concat.Text

/-!
# A scanner with more text behind its own

A scanner whose text ends with a line break does the same steps with another text behind, up to
the one that comes to the end of its own. That step passes blank lines, and then goes on with the
lines of the other text, or it gives the `newline` that ends the last logical line, or some other
trivia or token has come to the end. For each part of a step one lemma says which it is.
-/

namespace Verbatim

open Text (EndsLine firstLine lineBreakLength)

namespace Scanner

variable {s u : Scanner} {b : Text} {n : Nat}

def extend (b : Text) (s : Scanner) : Scanner :=
  { s with rest := s.rest ++ b }

theorem extend_nil (s : Scanner) : s.extend [] = s := by
  rw [extend, List.append_nil]

theorem rest_extend (b : Text) (s : Scanner) : (s.extend b).rest = s.rest ++ b := rfl

theorem rest_extend_cons {c : Char} {t : Text} (hrest : s.rest = c :: t) (b : Text) :
    (s.extend b).rest = c :: (t ++ b) := by
  rw [rest_extend, hrest]
  rfl

theorem tabSize_extend (b : Text) (s : Scanner) : (s.extend b).tabSize = s.tabSize := rfl

theorem columns_extend (b : Text) (s : Scanner) : (s.extend b).columns = s.columns := rfl

theorem column_extend (b : Text) (s : Scanner) : (s.extend b).column = s.column := rfl

theorem scheduled_extend (b : Text) (s : Scanner) : (s.extend b).scheduled = s.scheduled := rfl

theorem sameBlocks_extend (b : Text) (s : Scanner) : s.SameBlocks (s.extend b) :=
  ⟨rfl, rfl, rfl, rfl, rfl⟩

/-! ## Moving on -/

theorem advance_extend (hn : n ≤ s.rest.length) (b : Text) :
    (s.extend b).advance n = (s.advance n).extend b := by
  simp only [advance, extend]
  rw [List.take_append_of_le_length hn, List.drop_append_of_le_length hn]

theorem keep_extend (kind : TriviaKind) (hn : n ≤ s.rest.length) (b : Text) :
    (s.extend b).keep kind n = (s.keep kind n).extend b := by
  unfold keep
  split
  · rfl
  · rw [advance_extend hn]
    simp only [extend, spanOfNext, List.take_append_of_le_length hn]

theorem endsLine_keep (kind : TriviaKind) (hs : s.rest.EndsLine) (hmore : s.rest.drop n ≠ []) :
    (s.keep kind n).rest.EndsLine := by
  rw [rest_keep]
  exact hs.drop hmore

theorem emit_extend (kind : TokenKind) (hn : n ≤ s.rest.length) (b : Text) :
    (s.extend b).emit kind n = ((s.emit kind n).1, (s.emit kind n).2.extend b) := by
  rw [emit, emit, advance_extend hn]
  simp only [extend, spanOfNext, List.take_append_of_le_length hn]

/-! ## Lines without a token -/

/-- The scanner enters a logical line: the lines in front of it that have no token are passed. -/
def entered (s : Scanner) : Step Unit :=
  enterLine (s.rest.length + 1) s

theorem enterLine_eq_entered (h : s.rest.length < n) : enterLine n s = s.entered := by
  have hsame (m n : Nat) (s : Scanner) (hm : s.rest.length < m) (hn : s.rest.length < n) :
      enterLine m s = enterLine n s := by
    induction m generalizing n s with
    | zero => omega
    | succ m ih =>
      obtain ⟨n, rfl⟩ := Nat.exists_eq_succ_of_ne_zero (by omega : n ≠ 0)
      rw [enterLine_succ, enterLine_succ]
      cases hlength : lineBreakLength s.passLine.rest with
      | zero => rfl
      | succ k =>
        have hlt := s.length_rest_newline_lt hlength
        exact ih n _ (by omega) (by omega)
  exact hsame n (s.rest.length + 1) s h (Nat.lt_succ_self _)

theorem enterLineIfDue_of_atLineStart (h : s.atLineStart = true) :
    s.enterLineIfDue = ({ s with atLineStart := false } : Scanner).entered :=
  if_pos h

theorem entered_line (h : lineBreakLength s.passLine.rest = 0) (hne : s.passLine.rest ≠ []) :
    s.entered = s.passLine.measure (columnAfter s.passLine.tabSize (blanks s.rest)) := by
  rw [entered, enterLine_succ, h]
  simp [hne]

theorem entered_end (h : s.passLine.rest = []) : s.entered = (.ok (), s.passLine.closeBlocks) := by
  rw [entered, enterLine_succ, h]
  rfl

theorem entered_newline {k : Nat} (h : lineBreakLength s.passLine.rest = k + 1) :
    s.entered = (s.passLine.keep .newline (k + 1)).entered := by
  rw [entered, enterLine_succ, h]
  exact enterLine_eq_entered (s.length_rest_newline_lt h)

theorem sameBlocks_passLine (s : Scanner) : s.SameBlocks s.passLine :=
  (s.sameBlocks_keep .whitespace _).trans (sameBlocks_keep _ .comment _)

theorem isBlank_of_isLineBreak (c : Char) (hc : Text.isLineBreak c = true) : isBlank c = false := by
  simp only [Text.isLineBreak, Bool.or_eq_true, beq_iff_eq] at hc
  rcases hc with rfl | rfl <;> decide

theorem blanks_append_of_endsLine {t : Text} (ht : t.EndsLine) (b : Text) :
    blanks (t ++ b) = blanks t :=
  ht.takeWhile_append isBlank_of_isLineBreak b

theorem commentLength_append {t : Text} (ht : t.EndsLine) (b : Text) :
    commentLength (t ++ b) = commentLength t := by
  rw [commentLength, commentLength, Text.head?_append ht.ne_nil, ht.firstLine_append]

theorem commentLength_le (t : Text) : commentLength t ≤ t.length := by
  unfold commentLength
  split
  · exact (List.takeWhile_prefix _).length_le
  · exact Nat.zero_le _

theorem drop_commentLength_ne_nil {t : Text} (ht : t.EndsLine) : t.drop (commentLength t) ≠ [] := by
  unfold commentLength
  split
  · exact ht.drop_takeWhile_ne_nil (by simp)
  · exact ht.ne_nil

theorem passLine_extend (hs : s.rest.EndsLine) (b : Text) :
    (s.extend b).passLine = s.passLine.extend b ∧ s.passLine.rest.EndsLine := by
  have hblanks : blanks (s.extend b).rest = blanks s.rest := blanks_append_of_endsLine hs b
  have hle : (blanks s.rest).length ≤ s.rest.length := (List.takeWhile_prefix _).length_le
  have hrest : (s.keep .whitespace (blanks s.rest).length).rest.EndsLine :=
    endsLine_keep .whitespace hs (hs.drop_takeWhile_ne_nil isBlank_of_isLineBreak)
  constructor
  · rw [passLine, passLine, hblanks, keep_extend .whitespace hle]
    generalize s.keep .whitespace (blanks s.rest).length = u at hrest ⊢
    have hcomment : commentLength (u.extend b).rest = commentLength u.rest :=
      commentLength_append hrest b
    rw [hcomment, keep_extend .comment (commentLength_le _)]
  · exact endsLine_keep .comment hrest (drop_commentLength_ne_nil hrest)

/-- The scanner has come to the end of its text, and goes on with the text behind it. -/
structure Crosses (b : Text) (s w : Scanner) : Prop where
  rest : b.LeftOf w.rest
  same : s.SameBlocks w

theorem measure_extend (column : Nat) (b : Text) :
    (s.extend b).measure column = ((s.measure column).1, (s.measure column).2.extend b) := by
  by_cases hdeeper : s.column < column
  · simp only [measure, column_extend, hdeeper, if_true]
    rfl
  · by_cases hfits : (s.columns.dropWhile (column < ·)).headD 0 = column
    · simp only [measure, column_extend, columns_extend, hdeeper, hfits, if_true, if_false]
      rfl
    · simp only [measure, column_extend, columns_extend, hdeeper, hfits, if_false]
      rfl

/-- The last line break is passed, with the line feed of the other text that it may take. -/
theorem crosses_newline (hpos : lineBreakLength s.rest ≠ 0)
    (h : s.rest.drop (lineBreakLength s.rest) = []) (b : Text) :
    ∃ k, lineBreakLength (s.extend b).rest = k + 1 ∧
      s.Crosses b ((s.extend b).keep .newline (k + 1)) := by
  obtain ⟨hne, hleft⟩ := Text.leftOf_lineBreak hpos h b
  obtain ⟨k, hk⟩ := Nat.exists_eq_add_one_of_ne_zero hne
  rw [hk] at hleft
  refine ⟨k, hk, ?_, (sameBlocks_extend b s).trans (sameBlocks_keep _ .newline (k + 1))⟩
  rw [rest_keep]
  exact hleft

theorem lineBreakLength_passLine_extend (hs : s.rest.EndsLine)
    (hmore : s.passLine.rest.drop (lineBreakLength s.passLine.rest) ≠ []) (b : Text) :
    lineBreakLength (s.extend b).passLine.rest = lineBreakLength s.passLine.rest := by
  rw [(passLine_extend hs b).1]
  exact Text.lineBreakLength_append hmore b

/-- A blank line that is the last one leads over to the other text. -/
theorem entered_extend_last (hs : s.rest.EndsLine)
    (hmore : s.passLine.rest.drop (lineBreakLength s.passLine.rest) = []) (b : Text) :
    ∃ w, s.Crosses b w ∧ (s.extend b).entered = w.entered := by
  obtain ⟨hline, hrest⟩ := passLine_extend hs b
  have hpos : lineBreakLength s.passLine.rest ≠ 0 := by
    intro hzero
    rw [hzero] at hmore
    exact hrest.ne_nil hmore
  obtain ⟨k, hk, hcrosses⟩ := crosses_newline hpos hmore b
  rw [← hline] at hk hcrosses
  exact ⟨_, ⟨hcrosses.rest, s.sameBlocks_passLine.trans hcrosses.same⟩, entered_newline hk⟩

/-- A line with a token is entered in the same way with another text behind. -/
theorem entered_extend_line (hs : s.rest.EndsLine)
    (hzero : lineBreakLength s.passLine.rest = 0) :
    s.entered.2.rest.EndsLine ∧
      ∀ b, (s.extend b).entered = (s.entered.1, s.entered.2.extend b) := by
  have hrest := (passLine_extend hs []).2
  have hmore : s.passLine.rest.drop (lineBreakLength s.passLine.rest) ≠ [] := by
    rw [hzero]
    exact hrest.ne_nil
  rw [entered_line hzero hrest.ne_nil]
  constructor
  · rw [(samePlace_measure _ _).rest]
    exact hrest
  · intro b
    have hline := (passLine_extend hs b).1
    have hblanks : blanks (s.extend b).rest = blanks s.rest := blanks_append_of_endsLine hs b
    have hne : (s.passLine.extend b).rest ≠ [] := by simp [extend, hrest.ne_nil]
    have hbreak := (lineBreakLength_passLine_extend hs hmore b).trans hzero
    rw [entered_line hbreak (by rwa [hline]), hline, hblanks, tabSize_extend, measure_extend]

theorem entered_extend (hs : s.rest.EndsLine) :
    (s.entered.2.rest.EndsLine ∧
        ∀ b, (s.extend b).entered = (s.entered.1, s.entered.2.extend b)) ∨
      ∀ b, ∃ w, s.Crosses b w ∧ (s.extend b).entered = w.entered := by
  induction hn : s.rest.length using Nat.strong_induction_on generalizing s with
  | _ n ih =>
    by_cases hmore : s.passLine.rest.drop (lineBreakLength s.passLine.rest) = []
    · exact .inr (entered_extend_last hs hmore)
    have hbreak := lineBreakLength_passLine_extend hs hmore
    cases hlength : lineBreakLength s.passLine.rest with
    | zero => exact .inl (entered_extend_line hs hlength)
    | succ k =>
      -- a blank line, and then the lines behind it
      have hlt := s.length_rest_newline_lt hlength
      have hkeep := sameBlocks_keep s.passLine .newline (k + 1)
      rw [hlength] at hbreak hmore
      have hentered (b : Text) :
          (s.extend b).entered = ((s.passLine.keep .newline (k + 1)).extend b).entered := by
        rw [entered_newline (hbreak b), (passLine_extend hs b).1,
          keep_extend .newline (Text.le_length_of_drop_ne_nil hmore)]
      rw [entered_newline hlength]
      have hends := endsLine_keep .newline (passLine_extend hs []).2 hmore
      refine (ih _ (hn ▸ hlt) hends rfl).imp ?_ ?_
      · rintro ⟨hends, hall⟩
        exact ⟨hends, fun b => (hentered b).trans (hall b)⟩
      · intro hall b
        obtain ⟨w, hw, hcross⟩ := hall b
        have hsame := s.sameBlocks_passLine.trans (hkeep.trans hw.same)
        exact ⟨w, ⟨hw.rest, hsame⟩, (hentered b).trans hcross⟩

/-! ## Trivia in front of a token -/

/-- Where the text ends. -/
def textEnd (s : Scanner) : Nat :=
  s.offset + Text.size s.rest

theorem Passes.textEnd_eq {t : Text} (h : s.Passes t u) : u.textEnd = s.textEnd := by
  rw [textEnd, textEnd, h.offset, h.rest, Text.size_append, Nat.add_assoc]

theorem textEnd_keep (kind : TriviaKind) (n : Nat) : (s.keep kind n).textEnd = s.textEnd := by
  obtain ⟨ts, hgathers, -⟩ := s.gathers_keep kind n
  exact hgathers.passes.textEnd_eq

theorem stop_spanOfNext (h : s.rest.drop n = []) : (s.spanOfNext n).stop = s.textEnd := by
  rw [spanOfNext, Text.take_eq_of_drop_eq_nil h]
  rfl

theorem passTriviaUpTo_eq_passTrivia (h : s.rest.length ≤ n) :
    passTriviaUpTo n s = s.passTrivia := by
  have hsame (m n : Nat) (s : Scanner) (hm : s.rest.length ≤ m) (hn : s.rest.length ≤ n) :
      passTriviaUpTo m s = passTriviaUpTo n s := by
    induction m generalizing n s with
    | zero =>
      have hrest : s.rest = [] := List.length_eq_zero_iff.mp (Nat.le_zero.mp hm)
      have hstop : s.triviaAhead? = none := by simp [triviaAhead?, hrest]
      rw [passTriviaUpTo_of_none hstop, passTriviaUpTo_of_none hstop]
    | succ m ih =>
      cases hahead : s.triviaAhead? with
      | none => rw [passTriviaUpTo_of_none hahead, passTriviaUpTo_of_none hahead]
      | some ahead =>
        have hlt := length_rest_trivia_lt hahead
        obtain ⟨n, rfl⟩ := Nat.exists_eq_succ_of_ne_zero (by omega : n ≠ 0)
        rw [passTriviaUpTo, passTriviaUpTo, hahead]
        exact ih n _ (by omega) (by omega)
  exact hsame n s.rest.length s h (Nat.le_refl _)

theorem passTrivia_of_some {kind : TriviaKind} (h : s.triviaAhead? = some (kind, n)) :
    s.passTrivia = (s.keep kind n).passTrivia := by
  have hlt := length_rest_trivia_lt h
  obtain ⟨m, hm⟩ := Nat.exists_eq_succ_of_ne_zero (by omega : s.rest.length ≠ 0)
  rw [passTrivia, hm, passTriviaUpTo, h]
  exact passTriviaUpTo_eq_passTrivia (by omega)

theorem isAtTypeComment_extend (hs : s.rest.EndsLine) (b : Text) :
    (s.extend b).isAtTypeComment = s.isAtTypeComment := by
  have hmark : typeCommentMark.toList.all (!Text.isLineBreak ·) = true := by decide
  rw [isAtTypeComment, isAtTypeComment, rest_extend, hs.isPrefixOf_append (by simpa using hmark)]
  rfl

theorem triviaAhead?_extend_lineBreak {c : Char} {t : Text} (hrest : s.rest = c :: t)
    (hc : Text.isLineBreak c = true)
    (hmore : ∀ ahead, s.triviaAhead? = some ahead → s.rest.drop ahead.2 ≠ []) (b : Text) :
    (s.extend b).triviaAhead? = s.triviaAhead? := by
  have hbrackets : (s.extend b).brackets.isEmpty = s.brackets.isEmpty := rfl
  rw [triviaAhead?_lineBreak (rest_extend_cons hrest b) hc, hbrackets]
  rw [triviaAhead?_lineBreak hrest hc] at hmore ⊢
  split
  · rfl
  · next hopen =>
    rw [if_neg hopen] at hmore
    rw [rest_extend, Text.lineBreakLength_append (hmore _ rfl)]

theorem triviaAhead?_extend (hs : s.rest.EndsLine)
    (hmore : ∀ ahead, s.triviaAhead? = some ahead → s.rest.drop ahead.2 ≠ []) (b : Text) :
    (s.extend b).triviaAhead? = s.triviaAhead? := by
  have hcomment := isAtTypeComment_extend hs b
  have hblanks := blanks_append_of_endsLine hs b
  have hfirst := hs.firstLine_append b
  obtain ⟨c, t, hrest⟩ := List.exists_cons_of_ne_nil hs.ne_nil
  by_cases hc : Text.isLineBreak c = true
  · exact triviaAhead?_extend_lineBreak hrest hc hmore b
  have hne : t ≠ [] := by
    rintro rfl
    obtain ⟨d, hmem, hd⟩ := hs.exists_mem
    rw [hrest, List.mem_singleton] at hmem
    exact hc (hmem ▸ hd)
  unfold triviaAhead? at hmore ⊢
  rw [hcomment, rest_extend, hblanks, hfirst]
  rw [hrest] at hmore ⊢
  simp only [List.cons_append, hc, Bool.false_and] at hmore ⊢
  split
  · rfl
  · next hblank =>
    rw [if_neg hblank] at hmore
    split
    · rfl
    · next hhash =>
      rw [if_neg hhash] at hmore
      split
      · next hslash =>
        -- behind a backslash a line break may be longer if it is the last
        rw [if_pos hslash] at hmore
        have hdrop : t.drop (lineBreakLength t) ≠ [] := by
          cases hlength : lineBreakLength t with
          | zero => exact hne
          | succ k => exact hmore _ (by rw [hlength])
        rw [Text.lineBreakLength_append hdrop]
      · rfl

theorem triviaAhead?_backslash {t : Text} (hrest : s.rest = '\\' :: t) :
    s.triviaAhead? =
      match lineBreakLength t with
      | 0 => none
      | k + 1 => some (.lineContinuation, k + 2) := by
  rw [triviaAhead?, hrest]
  rfl

/-- Blanks and comments do not come to the end of the text. -/
theorem drop_triviaAhead?_ne_nil {kind : TriviaKind} {c : Char} {t : Text} (hs : s.rest.EndsLine)
    (hrest : s.rest = c :: t) (hc : Text.isLineBreak c = false) (hslash : c ≠ '\\')
    (h : s.triviaAhead? = some (kind, n)) : s.rest.drop n ≠ [] := by
  unfold triviaAhead? at h
  rw [hrest] at h hs ⊢
  simp only [hc, hslash, Bool.false_and, if_false] at h
  split at h
  · cases h
    exact hs.drop_takeWhile_ne_nil isBlank_of_isLineBreak
  · split at h
    · split at h
      · cases h
      · cases h
        exact hs.drop_takeWhile_ne_nil (by simp)
    · cases h

/-- With another text behind it a piece of trivia is at least as long. -/
theorem exists_triviaAhead?_extend {kind : TriviaKind} (hs : s.rest.EndsLine)
    (h : s.triviaAhead? = some (kind, n)) (b : Text) :
    ∃ m, (s.extend b).triviaAhead? = some (kind, m) ∧ n ≤ m := by
  obtain ⟨c, t, hrest⟩ := List.exists_cons_of_ne_nil hs.ne_nil
  have hrest' := rest_extend_cons hrest b
  by_cases hc : Text.isLineBreak c = true
  · have hbrackets : (s.extend b).brackets = s.brackets := rfl
    rw [triviaAhead?_lineBreak hrest hc] at h
    rw [triviaAhead?_lineBreak hrest' hc, hbrackets]
    split at h
    · cases h
    · next hopen =>
      cases h
      rw [if_neg hopen]
      exact ⟨_, rfl, Text.le_lineBreakLength_append s.rest b⟩
  by_cases hslash : c = '\\'
  · subst hslash
    have hle := Text.le_lineBreakLength_append t b
    rw [triviaAhead?_backslash hrest] at h
    rw [triviaAhead?_backslash hrest']
    split at h
    · cases h
    · next k hk =>
      cases h
      obtain ⟨k', hk'⟩ := Nat.exists_eq_succ_of_ne_zero (by omega : lineBreakLength (t ++ b) ≠ 0)
      rw [hk']
      exact ⟨_, rfl, by omega⟩
  · have hmore := drop_triviaAhead?_ne_nil hs hrest (by simpa using hc) hslash h
    have hextend : (s.extend b).triviaAhead? = s.triviaAhead? := by
      refine triviaAhead?_extend hs ?_ b
      rintro _ hahead
      cases h.symm.trans hahead
      exact hmore
    exact ⟨n, hextend.trans h, Nat.le_refl n⟩

/-- The trivia that comes to the end of the text. -/
def Trails (s u : Scanner) : Prop :=
  u.rest = [] ∧ ∃ t ∈ u.waiting, t.text ≠ [] ∧ t.span.stop = s.textEnd ∧
    (t.kind = .newline → s.brackets ≠ [])

theorem length_rest_passTrivia_le (s : Scanner) : s.passTrivia.rest.length ≤ s.rest.length := by
  obtain ⟨ts, hgathers, -⟩ := s.settles_passTrivia.gathers
  rw [hgathers.passes.rest, List.length_append]
  exact Nat.le_add_left _ _

theorem passTrivia_extend (hs : s.rest.EndsLine) :
    (s.passTrivia.rest.EndsLine ∧ ∀ b, (s.extend b).passTrivia = s.passTrivia.extend b) ∨
      s.Trails s.passTrivia ∧ ∀ b, (s.extend b).passTrivia.rest.length ≤ b.length := by
  induction hn : s.rest.length using Nat.strong_induction_on generalizing s with
  | _ n ih =>
    cases hahead : s.triviaAhead? with
    | none =>
      have hahead' := triviaAhead?_extend hs (by simp [hahead])
      rw [hahead] at hahead'
      rw [passTrivia_of_none hahead]
      exact .inl ⟨hs, fun b => passTrivia_of_none (hahead' b)⟩
    | some ahead =>
      obtain ⟨kind, length⟩ := ahead
      obtain ⟨hpos, -, houtside⟩ := triviaAhead?_eq_some hahead
      rw [passTrivia_of_some hahead]
      by_cases hmore : s.rest.drop length = []
      · have hend : (s.keep kind length).rest = [] := by rw [rest_keep, hmore]
        rw [passTrivia_of_none (by simp [triviaAhead?, hend])]
        refine .inr ⟨⟨hend, ⟨kind, s.spanOfNext length, s.rest.take length⟩, ?_, ?_,
          stop_spanOfNext hmore, fun hkind hnil => houtside hnil hkind⟩, fun b => ?_⟩
        · rw [keep, if_neg (by omega)]
          simp
        · rw [Text.take_eq_of_drop_eq_nil hmore]
          exact hs.ne_nil
        · obtain ⟨m, hahead', hm⟩ := exists_triviaAhead?_extend hs hahead b
          have hle := length_rest_passTrivia_le ((s.extend b).keep kind m)
          have hlength := List.drop_eq_nil_iff.mp hmore
          rw [rest_keep, rest_extend, List.length_drop, List.length_append] at hle
          rw [passTrivia_of_some hahead']
          omega
      · have hahead' (b : Text) : (s.extend b).triviaAhead? = s.triviaAhead? := by
          refine triviaAhead?_extend hs ?_ b
          rintro _ h
          cases hahead.symm.trans h
          exact hmore
        rw [hahead] at hahead'
        have hpass (b : Text) :
            (s.extend b).passTrivia = ((s.keep kind length).extend b).passTrivia := by
          rw [passTrivia_of_some (hahead' b),
            keep_extend kind (Text.le_length_of_drop_ne_nil hmore)]
        have hlt := length_rest_trivia_lt hahead
        refine (ih _ (hn ▸ hlt) (endsLine_keep kind hs hmore) rfl).imp ?_ ?_
        · rintro ⟨hends, hall⟩
          exact ⟨hends, fun b => (hpass b).trans (hall b)⟩
        · rintro ⟨⟨hend, t, hmem, htext, hstop, hkind⟩, hlength⟩
          rw [textEnd_keep] at hstop
          rw [(s.sameBlocks_keep kind length).brackets] at hkind
          exact ⟨⟨hend, t, hmem, htext, hstop, hkind⟩, fun b => hpass b ▸ hlength b⟩

/-! ## Tokens -/

variable {kind : TokenKind} {token : Token}

theorem lexeme_eq_ok (h : s.lexeme kind n = (.ok token, u)) :
    token = ⟨kind, s.spanOfNext n, s.waiting, s.rest.take n⟩ ∧ u.rest = s.rest.drop n := by
  unfold lexeme at h
  split at h
  · split at h
    · cases h
      exact ⟨rfl, rfl⟩
    · cases h
  · split at h
    · cases h
    · split at h
      · cases h
        exact ⟨rfl, rfl⟩
      · cases h
  · cases h
    exact ⟨rfl, rfl⟩

theorem lexeme_extend (kind : TokenKind) (hn : n ≤ s.rest.length) (b : Text) :
    (s.extend b).lexeme kind n = ((s.lexeme kind n).1, (s.lexeme kind n).2.extend b) := by
  have hemit (v : Scanner) (hv : v.rest = s.rest) :
      (v.extend b).emit kind n = ((v.emit kind n).1, (v.emit kind n).2.extend b) :=
    emit_extend kind (hv ▸ hn) b
  have hfail (v : Scanner) (hv : v.rest = s.rest) (cause : LexicalCause) :
      (v.extend b).fail (α := Token) ⟨cause, 0, n⟩ =
        ((v.fail ⟨cause, 0, n⟩).1, (v.fail (α := Token) ⟨cause, 0, n⟩).2.extend b) := by
    rw [fail, fail, advance_extend (hv ▸ hn)]
    rfl
  have hdepth : (s.extend b).bracketDepth = s.bracketDepth := rfl
  have hbrackets : (s.extend b).brackets = s.brackets := rfl
  unfold lexeme
  rw [hdepth, hbrackets]
  split
  · split
    · exact hemit (s.openBracket _) rfl
    · exact hfail s rfl _
  · split
    · exact hfail s rfl _
    · split
      · exact hemit s.closeBracket rfl
      · exact hfail s.closeBracket rfl _
  · exact hemit s rfl

/-- The line break at the end of the text is a `newline`, behind which a line starts, with the
text behind it as without. -/
def BreaksTo (s u : Scanner) : Prop :=
  ∀ b, ∃ token z, (s.extend b).scanToken = (.ok token, z) ∧ token.kind = .newline ∧
    u.Crosses b z

theorem breaksTo_of_drop {c : Char} {t : Text} (hrest : s.rest = c :: t)
    (hc : Text.isLineBreak c = true) (hmore : s.rest.drop (lineBreakLength s.rest) = [])
    (h : s.scanToken = (.ok token, u)) : s.BreaksTo u := by
  have hpos : lineBreakLength s.rest ≠ 0 := by
    intro hzero
    rw [hzero, hrest] at hmore
    cases hmore
  intro b
  obtain ⟨-, hleft⟩ := Text.leftOf_lineBreak hpos hmore b
  rw [scanToken_lineBreak hrest hc] at h
  cases h
  exact ⟨_, _, scanToken_lineBreak (rest_extend_cons hrest b) hc, rfl, hleft, rfl, rfl, rfl, rfl,
    rfl⟩

theorem scanToken_hash {t : Text} (hrest : s.rest = '#' :: t) :
    s.scanToken = s.emit .typeComment (firstLine s.rest).length := by
  rw [scanToken, hrest]
  rfl

theorem scanToken_backslash {t : Text} (hrest : s.rest = '\\' :: t) :
    ∃ fault, s.scanToken = s.fail fault := by
  rw [scanToken, hrest]
  exact ⟨_, rfl⟩

theorem scanToken_lexeme {c : Char} {t : Text} (hrest : s.rest = c :: t) (hhash : c ≠ '#')
    (hslash : c ≠ '\\') (hc : Text.isLineBreak c ≠ true) :
    s.scanToken =
      match Lexeme.read s.rest with
      | .ok (kind, length) => s.lexeme kind length
      | .error fault => s.fail fault := by
  unfold scanToken
  rw [hrest]
  simp only [hhash, hslash, hc, if_false]
  rfl

/-- The token comes to the end of the text. -/
structure Completes (s : Scanner) (token : Token) (u : Scanner) : Prop where
  rest : u.rest = []
  text : token.text ≠ []
  stop : token.span.stop = s.textEnd
  breaks : token.kind = .newline → s.BreaksTo u

theorem scanToken_extend_lineBreak {c : Char} {t : Text} (hs : s.rest.EndsLine)
    (hrest : s.rest = c :: t) (hc : Text.isLineBreak c = true)
    (h : s.scanToken = (.ok token, u)) :
    (u.rest.EndsLine ∧ ∀ b, (s.extend b).scanToken = (.ok token, u.extend b)) ∨
      s.Completes token u := by
  have hbreak := scanToken_lineBreak hrest hc
  by_cases hmore : s.rest.drop (lineBreakLength s.rest) = []
  · have hbreaks := breaksTo_of_drop hrest hc hmore h
    cases hbreak.symm.trans h
    refine .inr ⟨hmore, ?_, stop_spanOfNext hmore, fun _ => hbreaks⟩
    rw [Text.take_eq_of_drop_eq_nil hmore]
    exact hs.ne_nil
  · have hle := Text.le_length_of_drop_ne_nil hmore
    have hemit := emit_extend (s := { s with atLineStart := true }) .newline hle
    rw [← hbreak, h] at hemit
    cases hbreak.symm.trans h
    refine .inl ⟨hs.drop hmore, fun b => ?_⟩
    rw [scanToken_lineBreak (rest_extend_cons hrest b) hc, rest_extend,
      Text.lineBreakLength_append hmore]
    exact hemit b

/-- A type comment ends in front of a line break, so there is always more text behind it. -/
theorem scanToken_extend_hash {t : Text} (hs : s.rest.EndsLine) (hrest : s.rest = '#' :: t)
    (h : s.scanToken = (.ok token, u)) :
    u.rest.EndsLine ∧ ∀ b, (s.extend b).scanToken = (.ok token, u.extend b) := by
  have hcomment := scanToken_hash hrest
  have hmore : s.rest.drop (firstLine s.rest).length ≠ [] := hs.drop_takeWhile_ne_nil (by simp)
  have hemit := emit_extend .typeComment (Text.le_length_of_drop_ne_nil hmore)
  rw [← hcomment, h] at hemit
  cases hcomment.symm.trans h
  refine ⟨hs.drop hmore, fun b => ?_⟩
  rw [scanToken_hash (rest_extend_cons hrest b), rest_extend, hs.firstLine_append]
  exact hemit b

theorem scanToken_extend_lexeme {c : Char} {t : Text} (hs : s.rest.EndsLine)
    (hrest : s.rest = c :: t) (hhash : c ≠ '#') (hslash : c ≠ '\\')
    (hc : Text.isLineBreak c ≠ true) (h : s.scanToken = (.ok token, u)) :
    (u.rest.EndsLine ∧ ∀ b, (s.extend b).scanToken = (.ok token, u.extend b)) ∨
      s.Completes token u := by
  have hne : firstLine s.rest ≠ [] := by simp [hrest, firstLine, hc]
  rw [scanToken_lexeme hrest hhash hslash hc] at h
  split at h
  · next kind n hread =>
    obtain ⟨rfl, hu⟩ := lexeme_eq_ok h
    by_cases hmore : s.rest.drop n = []
    · refine .inr ⟨hu.trans hmore, ?_, stop_spanOfNext hmore, ?_⟩
      · dsimp only
        rw [Text.take_eq_of_drop_eq_nil hmore]
        exact hs.ne_nil
      · rintro rfl
        rw [hrest] at hread
        exact absurd (Lexeme.mem_kinds_of_read hread).1 (by decide)
    · rw [hu]
      refine .inl ⟨hs.drop hmore, fun b => ?_⟩
      have hread' : Lexeme.read (s.extend b).rest = .ok (kind, n) :=
        Lexeme.read_append_of_endsLine hs hne hread b
      have hlexeme := lexeme_extend kind (Text.le_length_of_drop_ne_nil hmore) b
      rw [h] at hlexeme
      rw [scanToken_lexeme (rest_extend_cons hrest b) hhash hslash hc, hread']
      exact hlexeme
  · cases h

theorem scanToken_extend (hs : s.rest.EndsLine) (h : s.scanToken = (.ok token, u)) :
    (u.rest.EndsLine ∧ ∀ b, (s.extend b).scanToken = (.ok token, u.extend b)) ∨
      s.Completes token u := by
  obtain ⟨c, t, hrest⟩ := List.exists_cons_of_ne_nil hs.ne_nil
  by_cases hc : Text.isLineBreak c = true
  · exact scanToken_extend_lineBreak hs hrest hc h
  by_cases hhash : c = '#'
  · subst hhash
    exact .inl (scanToken_extend_hash hs hrest h)
  by_cases hslash : c = '\\'
  · subst hslash
    obtain ⟨fault, hfault⟩ := scanToken_backslash hrest
    cases hfault.symm.trans h
  exact scanToken_extend_lexeme hs hrest hhash hslash hc h

end Scanner

end Verbatim
