import Verbatim.Proofs.Lines.Word

/-!
# The excerpt of a source

Next to a source, whatever error it is told of, a diagnostic has an excerpt. The offset and the
token of the error need not belong to the source: the place of the error is moved to the end of a
source that is too short, and the mark ends with the window at the latest. Only a source of so many
lines that the number of the line behind the window is no word can be without an excerpt.
-/

namespace Verbatim

namespace Diagnostic

open LineIndex (ofText)

variable {d : Diagnostic} {source : Text}

theorem placeIn_le_size : d.placeIn source ≤ Text.size source :=
  Nat.min_le_right _ _

/-- The line behind the window has a number that is a word. -/
theorem behind_lt (h : Text.size source < 2 ^ 32 - 3) :
    (ofText source).lineOf (d.placeIn source) + contextLines + 1 < 2 ^ 32 := by
  have hline : (ofText source).lineOf (d.placeIn source) ≤ d.placeIn source + 1 :=
    LineIndex.lineOf_le
  have hplace : d.placeIn source ≤ Text.size source := placeIn_le_size
  have hcontext : contextLines = 1 := rfl
  omega

theorem surrounds_window (h : Text.size source < 2 ^ 32 - 3) :
    (d.window source).Surrounds source contextLines (d.placeIn source) := by
  have hline : max ((ofText source).lineOf (d.placeIn source)) 1 =
      (ofText source).lineOf (d.placeIn source) := Nat.max_eq_left LineIndex.lineOf_pos
  rw [window, hline]
  exact LineWindow.surrounds_windowAround (behind_lt h)

theorem placeIn_le_markStop : d.placeIn source ≤ d.markStop source := by
  rw [markStop]
  split
  · exact Nat.le_max_right _ _
  · exact le_rfl

theorem markStop_le_stop (h : d.placeIn source ≤ (d.window source).stop) :
    d.markStop source ≤ (d.window source).stop := by
  rw [markStop]
  split
  · exact Nat.max_le.mpr ⟨Nat.min_le_right _ _, h⟩
  · exact h

end Diagnostic

/-- Where the parts of an excerpt lie: its lines in the source, the place of the error and the mark
in those lines, and the line that the title names, counted from the first of them. All numbers are
words, and so is that of the line behind the window, which is the greatest that is looked up. -/
structure Excerpt.Shows (excerpt : Excerpt) (source : Text) (d : Diagnostic) : Prop where
  first : (LineIndex.ofText source).lineStart? excerpt.firstLine = some (d.window source).start
  window_le_place : (d.window source).start ≤ d.placeIn source
  window_le_mark : (d.window source).start ≤ d.markStop source
  lines : ∃ before after, source = before ++ (excerpt.lines ++ after) ∧
    (d.window source).start = Text.size before ∧
    (d.window source).stop = Text.size before + Text.size excerpt.lines
  start_eq : (d.window source).start + excerpt.start = d.placeIn source
  start_le : excerpt.start ≤ Text.size excerpt.lines
  start_lt_stop : excerpt.start < excerpt.stop
  stop_le : excerpt.stop ≤ Text.size excerpt.lines + 1
  words : source.InWords
  behind_lt : (LineIndex.ofText source).lineOf (d.placeIn source) + Diagnostic.contextLines + 1 <
    2 ^ 32
  title : ∃ line column : Nat, d.title source = s!"{d.message} at {line}:{column}" ∧
    line = excerpt.firstLine + excerpt.lines.lineBreaksUpTo excerpt.start ∧
    excerpt.firstLine ≤ line ∧ line ≤ excerpt.firstLine + 1

namespace Diagnostic

open LineIndex (ofText)

variable {d : Diagnostic} {source : Text}

/-- Every diagnostic, whatever its offset and its token, has an excerpt of every source that is
shorter than `2 ^ 32 - 3` bytes. -/
theorem exists_excerpt_shows (d : Diagnostic) (source : Text)
    (hsource : Text.size source < 2 ^ 32 - 3) :
    ∃ excerpt, d.excerpt? source = some excerpt ∧ excerpt.Shows source d := by
  have hsize : d.placeIn source ≤ Text.size source := placeIn_le_size
  have hwindow : (d.window source).Surrounds source contextLines (d.placeIn source) :=
    surrounds_window hsource
  obtain ⟨before, lines, after, hcuts⟩ := hwindow.exists_cuts hsize
  have hplace := hwindow.start_le
  have hmark : d.placeIn source ≤ d.markStop source := placeIn_le_markStop
  have hmarkStop : d.markStop source ≤ (d.window source).stop :=
    markStop_le_stop (hwindow.le_stop hsize)
  have hstart := hcuts.start_eq
  have hstop := hcuts.stop_eq
  refine ⟨_, by rw [excerpt?, hcuts.lines?_eq]; rfl, ?_⟩
  constructor
  · exact hwindow.first
  · exact hplace
  · exact hplace.trans hmark
  · exact ⟨before, after, hcuts.text_eq, hstart, hstop⟩
  · exact Nat.add_sub_cancel' hplace
  · dsimp only
    omega
  · dsimp only
    split <;> omega
  · dsimp only
    split <;> omega
  · refine Text.inWords_of_size_lt (hsource.trans_le ?_)
    decide
  · exact behind_lt hsource
  · refine ⟨(ofText source).lineOf (d.placeIn source), _, rfl, ?_, ?_, ?_⟩
    · exact hcuts.lineOf_eq hwindow hsize
    · exact hwindow.firstLine_le
    · exact hwindow.lineOf_le

theorem exists_excerpt_shows_of_line :
    Text.size "a\n".toList < 2 ^ 32 - 3 ∧
      ∃ excerpt, excerpt? ⟨.lexical, "Unterminated string literal", 7, none⟩ "a\n".toList =
          some excerpt ∧
        excerpt.Shows "a\n".toList ⟨.lexical, "Unterminated string literal", 7, none⟩ := by
  have hsize : Text.size "a\n".toList < 2 ^ 32 - 3 := by decide
  exact ⟨hsize, exists_excerpt_shows _ _ hsize⟩

/-- Behind the last line break the mark is one byte past the end of the source. -/
example : excerpt? ⟨.lexical, "Unterminated string literal", 7, none⟩ "a\n".toList =
    some ⟨1, "a\n".toList, 2, 3⟩ := by
  decide

/-! ## The greatest sources -/

theorem lineOf_placeIn_lineFeeds {n : Nat} (hplace : n ≤ d.offset) :
    (ofText (List.replicate n '\n')).lineOf (d.placeIn (List.replicate n '\n')) = n + 1 := by
  rw [placeIn, Text.size_lineFeeds, Nat.min_eq_right hplace]
  exact LineIndex.lineOf_lineFeeds n

/-- Where the number of the line behind the window wraps to one, the window stops at the start of
the source, in front of its own start. -/
theorem excerpt?_lineFeeds {n : Nat} (hn : n + 2 = UInt32.size) (hplace : n ≤ d.offset) :
    d.excerpt? (List.replicate n '\n') = none := by
  obtain ⟨k, rfl⟩ : ∃ k, n = k + 2 := ⟨n - 2, by simp only [UInt32.size] at hn; omega⟩
  have hbehind : k + 2 + 1 + contextLines + 1 = UInt32.size + 1 := by
    simp only [contextLines]
    omega
  have hfirst : max (k + 2 + 1 - contextLines) 1 = k + 1 + 1 := by
    simp only [contextLines]
    omega
  have hwindow : d.window (List.replicate (k + 2) '\n') = ⟨k + 1 + 1, k + 1, 0⟩ := by
    rw [window, lineOf_placeIn_lineFeeds hplace, Nat.max_eq_left (Nat.succ_pos _),
      LineIndex.windowAround, hbehind, wrap_size_add (by decide), hfirst,
      LineIndex.lineStart?_lineFeeds (Nat.le_succ _), LineIndex.lineStart?_one]
    rfl
  rw [excerpt?, hwindow]
  rfl

/-- No source shorter than `2 ^ 32 - 1` bytes has more lines than one of `2 ^ 32 - 2` line feeds,
and it has no excerpt for an error at its end. With one line feed less the number of the line behind
the window is the least one that is no word. -/
theorem excerpt?_greatest_lineFeeds :
    Text.size (List.replicate (2 ^ 32 - 2) '\n') < 2 ^ 32 - 1 ∧
      excerpt? ⟨.lexical, "", 2 ^ 32 - 2, none⟩ (List.replicate (2 ^ 32 - 2) '\n') = none ∧
      Text.size (List.replicate (2 ^ 32 - 3) '\n') < 2 ^ 32 - 1 ∧
      (ofText (List.replicate (2 ^ 32 - 3) '\n')).lineOf
          (placeIn ⟨.lexical, "", 2 ^ 32 - 3, none⟩ (List.replicate (2 ^ 32 - 3) '\n')) +
        contextLines + 1 = 2 ^ 32 := by
  refine ⟨?_, excerpt?_lineFeeds (by decide) le_rfl, ?_, ?_⟩
  · rw [Text.size_lineFeeds]
    decide
  · rw [Text.size_lineFeeds]
    decide
  · rw [lineOf_placeIn_lineFeeds (n := 2 ^ 32 - 3) le_rfl]
    rfl

end Diagnostic

end Verbatim
