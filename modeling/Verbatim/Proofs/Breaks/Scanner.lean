import Mathlib.Data.List.Forall2
import Verbatim.Proofs.Breaks.Lexeme
import Verbatim.Proofs.Layout.Line

/-!
# Two scanners in step

One scanner reads a text and another the same text with other line breaks. From the same blocks
and brackets on, wherever in their sources the two stand, a step gives both the same: a token of
one kind, with the same text up to its line breaks, or a fault of one cause. If the second source
is the first one with other line breaks, the trivia and the offsets of faults also correspond.
-/

namespace Verbatim

open Text (withBreaks stretch firstLine Rebreaks)

/-- The piece of trivia with other line breaks in its text. -/
structure Trivia.Rebroken (br : Text) (t t' : Trivia) : Prop where
  kind : t'.kind = t.kind
  text : t'.text = withBreaks br t.text

namespace Scanner

variable {br source : Text} {tracked : Prop} {s s' : Scanner} {n : Nat}

/-- Two offsets of the same place in a source and in the source with other line breaks. -/
def SamePoint (br source : Text) (offset offset' : Nat) : Prop :=
  ∃ before after, source = before ++ after ∧ offset = Text.size before ∧
    offset' = Text.size (withBreaks br before)

/-- The second scanner has the text of the first in front of it, with other line breaks. What was
passed before is compared only where it is tracked. -/
structure Follows (br source : Text) (tracked : Prop) (s s' : Scanner) : Prop where
  breaks : Rebreaks br s.rest
  rest : s'.rest = withBreaks br s.rest
  tabSize : s'.tabSize = s.tabSize
  columns : s'.columns = s.columns
  brackets : s'.brackets.map Prod.fst = s.brackets.map Prod.fst
  scheduled : s'.scheduled = s.scheduled
  atLineStart : s'.atLineStart = s.atLineStart
  place : tracked → ∃ passed, source = passed ++ s.rest ∧ s.offset = Text.size passed ∧
    s'.offset = Text.size (withBreaks br passed)
  waiting : tracked → List.Forall₂ (Trivia.Rebroken br) s.waiting s'.waiting

/-- The outcomes of two steps that do the same. After a fault nothing more is compared. -/
inductive StepFollows {α : Type} (br source : Text) (tracked : Prop) (R : α → α → Prop) :
    Step α → Step α → Prop
  | ok {a a' : α} {u u' : Scanner} (value : R a a') (follows : Follows br source tracked u u') :
      StepFollows br source tracked R (.ok a, u) (.ok a', u')
  | error {error error' : LexicalError} {u u' : Scanner} (cause : error'.cause = error.cause)
      (place : tracked → SamePoint br source error.offset error'.offset) :
      StepFollows br source tracked R (.error error, u) (.error error', u')

/-- The token with other line breaks in its text, and in its trivia if that is tracked. -/
structure TokenFollows (br : Text) (tracked : Prop) (token token' : Token) : Prop where
  kind : token'.kind = token.kind
  text : token'.text = withBreaks br token.text
  leading : tracked → List.Forall₂ (Trivia.Rebroken br) token.leading token'.leading

/-! ## Lines without a token -/

/-- The scanner behind the blanks and the comment that may be all there is of a line. -/
def passLine (s : Scanner) : Scanner :=
  let u := s.keep .whitespace (blanks s.rest).length
  u.keep .comment (commentLength u.rest)

theorem enterLine_succ (n : Nat) (s : Scanner) : enterLine (n + 1) s =
    match Text.lineBreakLength s.passLine.rest with
    | 0 =>
      if s.passLine.rest.isEmpty then (.ok (), s.passLine.closeBlocks)
      else s.passLine.measure (columnAfter s.passLine.tabSize (blanks s.rest))
    | k + 1 => enterLine n (s.passLine.keep .newline (k + 1)) := rfl

theorem length_rest_passLine_le (s : Scanner) : s.passLine.rest.length ≤ s.rest.length := by
  rw [passLine, rest_keep, rest_keep, List.length_drop, List.length_drop]
  omega

theorem length_rest_newline_lt (s : Scanner) {k : Nat}
    (h : Text.lineBreakLength s.passLine.rest = k + 1) :
    (s.passLine.keep .newline (k + 1)).rest.length < s.rest.length := by
  have hle := s.length_rest_passLine_le
  have hne : s.passLine.rest.length ≠ 0 := by
    intro hnil
    rw [List.length_eq_zero_iff.mp hnil] at h
    cases h
  rw [rest_keep, List.length_drop]
  omega

namespace Follows

/-! ## Moving on -/

theorem samePoint (h : Follows br source tracked s s') (ht : tracked) (n : Nat) :
    SamePoint br source (s.offset + Text.size (s.rest.take n))
      (s'.offset + Text.size (s'.rest.take (stretch br s.rest n))) := by
  obtain ⟨passed, hsource, hoffset, hoffset'⟩ := h.place ht
  refine ⟨passed ++ s.rest.take n, s.rest.drop n, ?_, ?_, ?_⟩
  · rw [List.append_assoc, List.take_append_drop, hsource]
  · rw [hoffset, Text.size_append]
  · rw [hoffset', h.rest, h.breaks.take_withBreaks, Text.withBreaks_append, Text.size_append]

theorem advance (h : Follows br source tracked s s') (n : Nat) :
    Follows br source tracked (s.advance n) (s'.advance (stretch br s.rest n)) where
  breaks := h.breaks.drop n
  rest := by
    simp only [Scanner.advance]
    rw [h.rest, h.breaks.drop_withBreaks]
  tabSize := h.tabSize
  columns := h.columns
  brackets := h.brackets
  scheduled := h.scheduled
  atLineStart := h.atLineStart
  place := by
    intro ht
    obtain ⟨passed, hsource, hoffset, hoffset'⟩ := h.place ht
    refine ⟨passed ++ s.rest.take n, ?_, ?_, ?_⟩
    · simp only [Scanner.advance]
      rw [List.append_assoc, List.take_append_drop, hsource]
    · simp only [Scanner.advance]
      rw [hoffset, Text.size_append]
    · simp only [Scanner.advance]
      rw [hoffset', h.rest, h.breaks.take_withBreaks, Text.withBreaks_append, Text.size_append]
  waiting := h.waiting

theorem keep (h : Follows br source tracked s s') (kind : TriviaKind) (n : Nat) :
    Follows br source tracked (s.keep kind n) (s'.keep kind (stretch br s.rest n)) := by
  have hadvance := h.advance n
  by_cases hn : n = 0
  · subst hn
    simpa [Scanner.keep] using h
  · rw [Scanner.keep, Scanner.keep, if_neg hn, if_neg (mt Text.stretch_eq_zero_iff.mp hn)]
    refine { hadvance with waiting := fun ht => ?_ }
    refine List.rel_append (h.waiting ht) (.cons ⟨rfl, ?_⟩ .nil)
    simp only [h.rest, h.breaks.take_withBreaks]

theorem emit (h : Follows br source tracked s s') (kind : TokenKind) (n : Nat) :
    StepFollows br source tracked (TokenFollows br tracked) (s.emit kind n)
      (s'.emit kind (stretch br s.rest n)) := by
  refine .ok ⟨rfl, ?_, h.waiting⟩ { h.advance n with waiting := fun _ => .nil }
  simp only [h.rest, h.breaks.take_withBreaks]

theorem fail {α : Type} {R : α → α → Prop} (h : Follows br source tracked s s')
    {fault fault' : Fault} (hcause : fault'.cause = fault.cause)
    (hposition : fault'.position = stretch br s.rest fault.position) :
    StepFollows br source tracked R (s.fail fault) (s'.fail fault') := by
  refine .error hcause fun ht => ?_
  rw [hposition]
  exact h.samePoint ht fault.position

theorem marker (h : Follows br source tracked s s') (kind : TokenKind) (scheduled : Scheduled) :
    StepFollows br source tracked (TokenFollows br tracked)
      (.ok (s.marker kind), { s with scheduled })
      (.ok (s'.marker kind), { s' with scheduled }) :=
  .ok ⟨rfl, rfl, fun _ => .nil⟩ { h with scheduled := rfl }

/-! ## The start of a line -/

theorem blanks_rest (h : Follows br source tracked s s') : blanks s'.rest = blanks s.rest := by
  rw [h.rest]
  exact h.breaks.takeWhile_withBreaks rfl rfl

theorem stretch_blanks : stretch br s.rest (blanks s.rest).length = (blanks s.rest).length :=
  Text.stretch_takeWhile rfl

theorem stretch_firstLine :
    stretch br s.rest (firstLine s.rest).length = (firstLine s.rest).length :=
  Text.stretch_takeWhile rfl

theorem firstLine_rest (h : Follows br source tracked s s') :
    firstLine s'.rest = firstLine s.rest := by
  rw [h.rest, h.breaks.firstLine_withBreaks]

theorem lineBreakLength_rest (h : Follows br source tracked s s') :
    Text.lineBreakLength s'.rest = stretch br s.rest (Text.lineBreakLength s.rest) := by
  rw [h.rest, h.breaks.lineBreakLength_withBreaks]

theorem isEmpty_rest (h : Follows br source tracked s s') : s'.rest.isEmpty = s.rest.isEmpty := by
  rw [Bool.eq_iff_iff, List.isEmpty_iff, List.isEmpty_iff, h.rest, h.breaks.eq_nil_iff]

theorem commentLength_rest (h : Follows br source tracked s s') :
    commentLength s'.rest = stretch br s.rest (commentLength s.rest) := by
  have hhead : s'.rest.head? = some '#' ↔ s.rest.head? = some '#' := by
    rw [h.rest]
    exact h.breaks.head?_eq_iff (by decide) (by decide)
  unfold commentLength
  by_cases hhash : s.rest.head? = some '#'
  · rw [if_pos hhash, if_pos (hhead.mpr hhash), h.firstLine_rest, stretch_firstLine]
  · rw [if_neg hhash, if_neg (mt hhead.mp hhash), Text.stretch_zero]

theorem measure (h : Follows br source tracked s s') (column : Nat) :
    StepFollows br source tracked (fun _ _ => True) (s.measure column) (s'.measure column) := by
  have hcolumn : s'.column = s.column := by rw [Scanner.column, Scanner.column, h.columns]
  unfold Scanner.measure
  rw [hcolumn, h.columns]
  dsimp only
  split
  · exact .ok trivial { h with columns := rfl, scheduled := rfl }
  · split
    · exact .ok trivial { h with columns := rfl, scheduled := rfl }
    · refine .error rfl fun ht => ?_
      have hpoint := h.samePoint ht 0
      simpa using hpoint

theorem closeBlocks (h : Follows br source tracked s s') :
    Follows br source tracked s.closeBlocks s'.closeBlocks := by
  unfold Scanner.closeBlocks
  rw [h.columns]
  split
  · exact h
  · exact { h with columns := rfl, scheduled := rfl }

theorem passLine (h : Follows br source tracked s s') :
    Follows br source tracked s.passLine s'.passLine := by
  have hblank := h.keep .whitespace (blanks s.rest).length
  rw [stretch_blanks] at hblank
  rw [Scanner.passLine, Scanner.passLine, h.blanks_rest, hblank.commentLength_rest]
  exact hblank.keep .comment _

theorem enterLine (m n : Nat) (h : Follows br source tracked s s') (hm : s.rest.length < m)
    (hn : s'.rest.length < n) :
    StepFollows br source tracked (fun _ _ => True) (Scanner.enterLine m s)
      (Scanner.enterLine n s') := by
  induction m generalizing n s s' with
  | zero => omega
  | succ m ih =>
    obtain ⟨n, rfl⟩ := Nat.exists_eq_succ_of_ne_zero (by omega : n ≠ 0)
    have hline := h.passLine
    have hbreak := hline.lineBreakLength_rest
    rw [enterLine_succ, enterLine_succ, h.blanks_rest, hline.tabSize, hline.isEmpty_rest]
    cases hlength : Text.lineBreakLength s.passLine.rest with
    | zero =>
      rw [hlength, Text.stretch_zero] at hbreak
      rw [hbreak]
      dsimp only
      split
      · exact .ok trivial hline.closeBlocks
      · exact hline.measure _
    | succ k =>
      rw [hlength] at hbreak
      have hne : stretch br s.passLine.rest (k + 1) ≠ 0 :=
        mt Text.stretch_eq_zero_iff.mp (Nat.succ_ne_zero k)
      obtain ⟨k', hk'⟩ := Nat.exists_eq_succ_of_ne_zero hne
      have hnewline := hline.keep .newline (k + 1)
      rw [hk'] at hbreak hnewline
      rw [hbreak]
      dsimp only
      refine ih n hnewline ?_ ?_
      · exact Nat.lt_of_lt_of_le (s.length_rest_newline_lt hlength) (Nat.le_of_lt_succ hm)
      · exact Nat.lt_of_lt_of_le (s'.length_rest_newline_lt hbreak) (Nat.le_of_lt_succ hn)

theorem enterLineIfDue (h : Follows br source tracked s s') :
    StepFollows br source tracked (fun _ _ => True) s.enterLineIfDue s'.enterLineIfDue := by
  unfold Scanner.enterLineIfDue
  rw [h.atLineStart]
  split
  · exact enterLine _ _ { h with atLineStart := rfl } (Nat.lt_succ_self _) (Nat.lt_succ_self _)
  · exact .ok trivial h

/-! ## Trivia in front of a token -/

theorem isEmpty_brackets (h : Follows br source tracked s s') :
    s'.brackets.isEmpty = s.brackets.isEmpty := by
  have hlength := congrArg List.length h.brackets
  rw [List.length_map, List.length_map] at hlength
  rw [Bool.eq_iff_iff, List.isEmpty_iff, List.isEmpty_iff, ← List.length_eq_zero_iff,
    ← List.length_eq_zero_iff, hlength]

theorem isAtTypeComment (h : Follows br source tracked s s') :
    s'.isAtTypeComment = s.isAtTypeComment := by
  rw [Scanner.isAtTypeComment, Scanner.isAtTypeComment, h.isEmpty_brackets, h.rest,
    h.breaks.isPrefixOf_withBreaks (by decide) (by decide)]

/-- The two texts end together, break a line together, or go on with the same character. -/
inductive Heads (br : Text) : Text → Text → Prop
  | nil : Heads br [] []
  | lineBreak {c c' : Char} {t t' : Text} (h : Text.isLineBreak c = true)
      (h' : Text.isLineBreak c' = true) : Heads br (c :: t) (c' :: t')
  | same {c : Char} {t : Text} (h : c ≠ '\n') (breaks : Rebreaks br t) :
      Heads br (c :: t) (c :: withBreaks br t)

theorem heads (h : Follows br source tracked s s') : Heads br s.rest s'.rest := by
  have hbreaks := h.breaks
  rw [h.rest]
  cases hrest : s.rest with
  | nil => exact .nil
  | cons c t =>
    rw [hrest] at hbreaks
    by_cases hc : c = '\n'
    · obtain ⟨d, v, rfl, hd⟩ := hbreaks.exists_head
      rw [hc, Text.withBreaks_lineFeed, List.cons_append]
      refine .lineBreak rfl ?_
      rcases hd with rfl | rfl <;> rfl
    · rw [Text.withBreaks_cons hc]
      exact .same hc hbreaks.of_cons

end Follows

theorem length_rest_trivia_lt {kind : TriviaKind} (h : s.triviaAhead? = some (kind, n)) :
    (s.keep kind n).rest.length < s.rest.length := by
  obtain ⟨hpos, hne, -⟩ := triviaAhead?_eq_some h
  have := List.length_pos_iff.mpr hne
  rw [rest_keep, List.length_drop]
  omega

theorem triviaAhead?_lineBreak {c : Char} {t : Text} (hrest : s.rest = c :: t)
    (hc : Text.isLineBreak c = true) :
    s.triviaAhead? =
      if s.brackets.isEmpty then none else some (.newline, Text.lineBreakLength s.rest) := by
  have hother : isBlank c = false ∧ c ≠ '#' ∧ c ≠ '\\' := by
    simp only [Text.isLineBreak, Bool.or_eq_true, beq_iff_eq] at hc
    rcases hc with rfl | rfl <;> decide
  unfold Scanner.triviaAhead?
  rw [hrest]
  simp only [hother.1, hother.2.1, hother.2.2, hc, Bool.true_and, if_false]
  cases s.brackets.isEmpty <;> simp

theorem scanToken_lineBreak {c : Char} {t : Text} (hrest : s.rest = c :: t)
    (hc : Text.isLineBreak c = true) :
    s.scanToken = { s with atLineStart := true }.emit .newline (Text.lineBreakLength s.rest) := by
  have hother : c ≠ '#' ∧ c ≠ '\\' := by
    simp only [Text.isLineBreak, Bool.or_eq_true, beq_iff_eq] at hc
    rcases hc with rfl | rfl <;> decide
  unfold Scanner.scanToken
  rw [hrest]
  simp only [hother.1, hother.2, hc, if_true, if_false]

namespace Follows

theorem triviaAhead? (h : Follows br source tracked s s') :
    s'.triviaAhead? = s.triviaAhead?.map fun ahead => (ahead.1, stretch br s.rest ahead.2) := by
  have hbrackets := h.isEmpty_brackets
  have hblanks := h.blanks_rest
  have hfirst := h.firstLine_rest
  have hcomment := h.isAtTypeComment
  have hbreak := h.lineBreakLength_rest
  have hstretch : stretch br s.rest (blanks s.rest).length = (blanks s.rest).length :=
    stretch_blanks
  have hstretch' : stretch br s.rest (firstLine s.rest).length = (firstLine s.rest).length :=
    stretch_firstLine
  have hheads := h.heads
  generalize hrest : s.rest = t at hheads
  generalize hrest' : s'.rest = t' at hheads
  cases hheads with
  | nil => simp [Scanner.triviaAhead?, hrest, hrest']
  | lineBreak hc hc' =>
    rw [triviaAhead?_lineBreak hrest hc, triviaAhead?_lineBreak hrest' hc', hbrackets, hbreak,
      hrest]
    split <;> simp
  | @same c t hc hbreaks =>
    unfold Scanner.triviaAhead?
    rw [hblanks, hfirst, hcomment, hbreak, hbrackets]
    rw [hrest] at hstretch hstretch' ⊢
    rw [hrest']
    dsimp only
    split
    · simp [hstretch]
    · split
      · split
        · rfl
        · simp [hstretch']
      · split
        · have hlength := hbreaks.lineBreakLength_withBreaks
          rw [hlength]
          cases hk : Text.lineBreakLength t with
          | zero => simp
          | succ k =>
            obtain ⟨k', hk'⟩ := Nat.exists_eq_succ_of_ne_zero
              (mt Text.stretch_eq_zero_iff.mp (Nat.succ_ne_zero k) : stretch br t (k + 1) ≠ 0)
            rw [hk', Option.map_some, Text.stretch_cons_succ hc, hk']
        · split
          · rfl
          · rfl

theorem passTriviaUpTo (m n : Nat) (h : Follows br source tracked s s') (hm : s.rest.length ≤ m)
    (hn : s'.rest.length ≤ n) :
    Follows br source tracked (Scanner.passTriviaUpTo m s) (Scanner.passTriviaUpTo n s') := by
  induction m generalizing n s s' with
  | zero =>
    have hrest : s.rest = [] := List.length_eq_zero_iff.mp (Nat.le_zero.mp hm)
    have hstop : s.triviaAhead? = none := by simp [Scanner.triviaAhead?, hrest]
    have hstop' := h.triviaAhead?
    rw [hstop, Option.map_none] at hstop'
    rwa [passTriviaUpTo_of_none hstop, passTriviaUpTo_of_none hstop']
  | succ m ih =>
    have hahead' := h.triviaAhead?
    cases hahead : s.triviaAhead? with
    | none =>
      rw [hahead, Option.map_none] at hahead'
      rwa [passTriviaUpTo_of_none hahead, passTriviaUpTo_of_none hahead']
    | some ahead =>
      obtain ⟨kind, length⟩ := ahead
      rw [hahead, Option.map_some] at hahead'
      have hlt := length_rest_trivia_lt hahead
      have hlt' := length_rest_trivia_lt hahead'
      obtain ⟨n, rfl⟩ := Nat.exists_eq_succ_of_ne_zero (by omega : n ≠ 0)
      rw [Scanner.passTriviaUpTo, Scanner.passTriviaUpTo, hahead, hahead']
      exact ih n (h.keep kind length) (by omega) (by omega)

theorem passTrivia (h : Follows br source tracked s s') :
    Follows br source tracked s.passTrivia s'.passTrivia :=
  passTriviaUpTo _ _ h (Nat.le_refl _) (Nat.le_refl _)

/-! ## Tokens -/

theorem lexeme (h : Follows br source tracked s s') (kind : TokenKind) (n : Nat) :
    StepFollows br source tracked (TokenFollows br tracked) (s.lexeme kind n)
      (s'.lexeme kind (stretch br s.rest n)) := by
  have hlength := congrArg List.length h.brackets
  rw [List.length_map, List.length_map] at hlength
  have hclosed : Follows br source tracked s.closeBracket s'.closeBracket := by
    refine { h with brackets := ?_ }
    simp only [Scanner.closeBracket]
    rw [List.map_tail, List.map_tail, h.brackets]
  unfold Scanner.lexeme
  split
  · next bracket _ =>
    rw [bracketDepth, bracketDepth, hlength]
    split
    · have hopened :
          Follows br source tracked (s.openBracket bracket) (s'.openBracket bracket) := by
        refine { h with brackets := ?_ }
        simp [Scanner.openBracket, h.brackets]
      exact hopened.emit kind n
    · exact h.fail rfl Text.stretch_zero.symm
  · have hbrackets := h.brackets
    cases hs : s.brackets with
    | nil =>
      rw [hs, List.map_nil, List.map_eq_nil_iff] at hbrackets
      rw [hbrackets]
      exact h.fail rfl Text.stretch_zero.symm
    | cons opener outer =>
      rw [hs, List.map_cons, List.map_eq_cons_iff] at hbrackets
      obtain ⟨opener', outer', hs', hopener, -⟩ := hbrackets
      rw [hs']
      dsimp only
      rw [hopener]
      split
      · exact hclosed.emit kind n
      · exact hclosed.fail rfl Text.stretch_zero.symm
  · exact h.emit kind n

theorem finish (h : Follows br source tracked s s') :
    StepFollows br source tracked (TokenFollows br tracked) s.finish s'.finish := by
  unfold Scanner.finish
  rw [h.columns]
  split
  · have hemit := h.emit .endOfFile 0
    rwa [Text.stretch_zero] at hemit
  · exact h.closeBlocks.marker .dedent _

theorem scanToken (h : Follows br source tracked s s') :
    StepFollows br source tracked (TokenFollows br tracked) s.scanToken s'.scanToken := by
  have hheads := h.heads
  have hfirst := h.firstLine_rest
  have hbreak := h.lineBreakLength_rest
  generalize hrest : s.rest = t at hheads
  generalize hrest' : s'.rest = t' at hheads
  have hline : Follows br source tracked { s with atLineStart := true }
      { s' with atLineStart := true } :=
    { h with atLineStart := rfl }
  cases hheads with
  | nil =>
    unfold Scanner.scanToken
    rw [hrest, hrest']
    exact h.finish
  | lineBreak hc hc' =>
    rw [scanToken_lineBreak hrest hc, scanToken_lineBreak hrest' hc', hbreak]
    exact hline.emit .newline _
  | @same c t _ hbreaks =>
    by_cases hc : Text.isLineBreak c = true
    · rw [scanToken_lineBreak hrest hc, scanToken_lineBreak hrest' hc, hbreak]
      exact hline.emit .newline _
    unfold Scanner.scanToken
    rw [hfirst, hbreak]
    have hread (hne : firstLine s.rest ≠ []) := Lexeme.follows_read h.breaks hne
    rw [← h.rest] at hread
    rw [hrest, hrest'] at hread ⊢
    dsimp only
    split
    · have hemit := h.emit .typeComment (firstLine s.rest).length
      rwa [stretch_firstLine, hrest] at hemit
    · split
      · refine h.fail ?_ Text.stretch_zero.symm
        have hempty : (withBreaks br t).isEmpty = t.isEmpty := by
          rw [Bool.eq_iff_iff, List.isEmpty_iff, List.isEmpty_iff, hbreaks.eq_nil_iff]
        rw [hempty]
      · have hread := hread (by simp [firstLine, hc])
        generalize Lexeme.read (c :: t) = x at hread
        generalize Lexeme.read (c :: withBreaks br t) = x' at hread
        cases hread with
        | ok =>
          rw [← hrest]
          exact h.lexeme _ _
        | error cause position =>
          rw [← hrest] at position
          exact h.fail cause position

theorem next (h : Follows br source tracked s s') :
    StepFollows br source tracked (TokenFollows br tracked) s.next s'.next := by
  have hdue := h.enterLineIfDue
  unfold Scanner.next
  generalize s.enterLineIfDue = x at hdue
  generalize s'.enterLineIfDue = x' at hdue
  cases hdue with
  | error cause place => exact .error cause place
  | @ok _ _ u u' _ follows =>
    dsimp only
    rw [follows.scheduled]
    cases u.scheduled with
    | indent => exact follows.marker .indent _
    | dedents n =>
      cases n with
      | zero => exact follows.passTrivia.scanToken
      | succ n => exact follows.marker .dedent _

end Follows

end Scanner

end Verbatim
