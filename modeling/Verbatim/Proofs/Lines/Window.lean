import Mathlib.Data.Nat.Count
import Verbatim.Diagnostic
import Verbatim.Proofs.Lines.Position

/-!
# Windows of whole lines

The line of an offset counts the line breaks that stop at it or in front of it. A window begins
where a line starts and stops where a line starts or at the end of the text, so that it cuts no
line break in two. The line breaks in it up to an offset then tell how far the line of the offset
is behind the first line of the window.
-/

namespace Verbatim

namespace Text

open LineIndex (ofText)

variable {t before piece after front back : Text} {o p : Nat}

/-! ## Line breaks counted -/

instance (t : Text) : DecidablePred t.LineBreakStopsAt := fun p =>
  decidable_of_iff (p ∈ lineStartsAfter 0 t) (mem_lineStartsAfter.trans lineBreakStopsAfter_zero)

/-- The number of line breaks that stop at an offset or in front of it. -/
def lineBreaksUpTo (t : Text) (o : Nat) : Nat :=
  Nat.count t.LineBreakStopsAt (o + 1)

theorem LineBreakStopsAt.pos (h : t.LineBreakStopsAt p) : 0 < p := by
  obtain ⟨before, after, -, rfl, hbreak⟩ := h
  exact size_pos hbreak.ne_nil

theorem LineBreakStopsAt.le_size (h : t.LineBreakStopsAt p) : p ≤ size t := by
  obtain ⟨before, after, rfl, rfl, -⟩ := h
  rw [size_append]
  omega

theorem lineBreaksUpTo_zero : t.lineBreaksUpTo 0 = 0 := by
  rw [lineBreaksUpTo, Nat.count_succ, Nat.count_zero, if_neg fun h => h.pos.false]

theorem lineBreaksUpTo_succ :
    t.lineBreaksUpTo (o + 1) = t.lineBreaksUpTo o + if t.LineBreakStopsAt (o + 1) then 1 else 0 :=
  Nat.count_succ ..

theorem lineBreaksUpTo_le : t.lineBreaksUpTo o ≤ o := by
  induction o with
  | zero => rw [lineBreaksUpTo_zero]
  | succ o ih =>
    rw [lineBreaksUpTo_succ]
    split <;> omega

/-- The lines that start at or before an offset are the first one and one behind each break. -/
theorem lineOf_eq_lineBreaksUpTo : (ofText t).lineOf o = t.lineBreaksUpTo o + 1 := by
  have hnodup : (lineStartsAfter 0 t).Nodup :=
    (List.pairwise_cons.mp (LineIndex.pairwise_starts t)).2.imp ne_of_lt
  have hfirst : (ofText t).lineOf o =
      (lineStartsAfter 0 t).countP (· ≤ min o (size t)) + 1 :=
    LineIndex.lineOf_eq_countP.trans (List.countP_cons_of_pos (by simp))
  rw [hfirst, lineBreaksUpTo, Nat.count_eq_card_filter_range, List.countP_eq_length_filter,
    ← List.toFinset_card_of_nodup (hnodup.filter _)]
  congr 2
  ext p
  have hle : t.LineBreakStopsAt p → p ≤ size t := LineBreakStopsAt.le_size
  simp only [List.mem_toFinset, List.mem_filter, decide_eq_true_eq, Finset.mem_filter,
    Finset.mem_range, mem_lineStartsAfter.trans lineBreakStopsAfter_zero]
  constructor
  · rintro ⟨hbreak, hp⟩
    exact ⟨by omega, hbreak⟩
  · rintro ⟨hp, hbreak⟩
    have := hle hbreak
    exact ⟨hbreak, by omega⟩

/-! ## Pieces of a text -/

/-- What is around a piece does not matter to a cut in it, unless the cut is at its end. -/
theorem breaksBetween_piece (hfront : front ≠ [])
    (hend : size front < size (front ++ back) ∨ after = []) :
    BreaksBetween (before ++ front) (back ++ after) ↔ BreaksBetween front back := by
  rw [breaksBetween_append hfront]
  cases back with
  | nil =>
    rw [List.append_nil] at hend
    rw [hend.resolve_left (lt_irrefl _), List.append_nil]
  | cons => rfl

theorem lineBreakStopsAt_piece (h : t = before ++ (piece ++ after)) (hp : 0 < p)
    (hle : p ≤ size piece) (hend : p < size piece ∨ after = []) :
    t.LineBreakStopsAt (size before + p) ↔ piece.LineBreakStopsAt p := by
  subst h
  constructor
  · rintro ⟨whole, rest, htext, hsize, hbreak⟩
    obtain ⟨front, rfl, hrest⟩ := exists_append_of_size_le htext (by omega)
    obtain rfl : size front = p := by
      rw [size_append] at hsize
      omega
    obtain ⟨back, rfl, rfl⟩ := exists_append_of_size_le hrest.symm hle
    have hfront : front ≠ [] := by
      rintro rfl
      exact hp.false
    exact ⟨front, back, rfl, rfl, (breaksBetween_piece hfront hend).mp hbreak⟩
  · rintro ⟨front, back, rfl, rfl, hbreak⟩
    refine ⟨before ++ front, back ++ after, ?_, size_append .., ?_⟩
    · simp only [List.append_assoc]
    · exact (breaksBetween_piece hbreak.ne_nil hend).mpr hbreak

/-- The line breaks of a text up to a place in a piece of it are those in front of the piece and
those of the piece. -/
theorem lineBreaksUpTo_piece (h : t = before ++ (piece ++ after)) (hle : o ≤ size piece)
    (hend : o < size piece ∨ after = []) :
    t.lineBreaksUpTo (size before + o) =
      t.lineBreaksUpTo (size before) + piece.lineBreaksUpTo o := by
  induction o with
  | zero => rw [lineBreaksUpTo_zero, Nat.add_zero, Nat.add_zero]
  | succ o ih =>
    have hstop := lineBreakStopsAt_piece h o.succ_pos hle hend
    rw [← Nat.add_assoc, lineBreaksUpTo_succ, lineBreaksUpTo_succ,
      ih (by omega) (hend.imp_left fun hlt => by omega), Nat.add_assoc (size before),
      if_congr hstop rfl rfl, Nat.add_assoc]

end Text

open LineIndex (ofText)

variable {t lines : Text} {window : LineWindow} {context l o : Nat}

namespace LineIndex

/-- The line whose start is looked up is the line of that start. -/
theorem lineOf_of_lineStart? (h : (ofText t).lineStart? l = some o) : (ofText t).lineOf o = l := by
  obtain ⟨before, line, br, after, hline, rfl⟩ := Text.exists_isLine h
  have hl := hline.onLine (List.nil_prefix (l := line))
  rw [List.append_nil] at hl
  exact (onLine_iff.mp hl).symm

theorem isBoundary_of_lineStart? (h : (ofText t).lineStart? l = some o) : t.IsBoundary o := by
  obtain ⟨before, line, br, after, hline, rfl⟩ := Text.exists_isLine h
  exact ⟨before, _, hline.text_eq, rfl⟩

theorem lineOf_le : (ofText t).lineOf o ≤ o + 1 := by
  rw [Text.lineOf_eq_lineBreaksUpTo]
  exact Nat.succ_le_succ Text.lineBreaksUpTo_le

end LineIndex

namespace LineWindow

/-! ## The window around an offset -/

/-- A window of whole lines, an offset that is in it or at the end of the text, and as many lines
in front of the offset as there are, up to a number. -/
structure Surrounds (t : Text) (context o : Nat) (window : LineWindow) : Prop where
  first : (ofText t).lineStart? window.firstLine = some window.start
  firstLine_le : window.firstLine ≤ (ofText t).lineOf o
  lineOf_le : (ofText t).lineOf o ≤ window.firstLine + context
  start_le : window.start ≤ o
  stop : o < window.stop ∧ t.IsBoundary window.stop ∨ window.stop = Text.size t

theorem surrounds_windowAround
    (hword : (ofText t).lineOf o + context + 1 < UInt32.size) :
    ((ofText t).windowAround context ((ofText t).lineOf o)).Surrounds t context o := by
  have hwrap : wrap ((ofText t).lineOf o + context + 1) = (ofText t).lineOf o + context + 1 :=
    wrap_of_lt hword
  have hpos : 0 < (ofText t).lineOf o := LineIndex.lineOf_pos
  obtain ⟨start, hstart, hle⟩ : ∃ start,
      (ofText t).lineStart? (max ((ofText t).lineOf o - context) 1) = some start ∧ start ≤ o :=
    (LineIndex.le_lineOf_iff (by omega)).mp (by omega)
  have hfirst : ((ofText t).windowAround context ((ofText t).lineOf o)).start = start := by
    rw [LineIndex.windowAround, hstart, Option.getD_some]
  constructor
  · rw [hfirst]
    exact hstart
  · simp only [LineIndex.windowAround]
    omega
  · simp only [LineIndex.windowAround]
    omega
  · rw [hfirst]
    exact hle
  · rcases hnext : (ofText t).lineStart? ((ofText t).lineOf o + context + 1) with _ | next
    · right
      rw [LineIndex.windowAround, hwrap, hnext, Option.getD_none]
      rfl
    · left
      rw [LineIndex.windowAround, hwrap, hnext, Option.getD_some]
      refine ⟨?_, LineIndex.isBoundary_of_lineStart? hnext⟩
      -- a line that started at or before the offset would count in its line
      by_contra hbefore
      have hreaches := (LineIndex.le_lineOf_iff (Nat.succ_pos _)).mpr
        ⟨next, hnext, not_lt.mp hbefore⟩
      omega

theorem Surrounds.le_stop (h : window.Surrounds t context o) (ho : o ≤ Text.size t) :
    o ≤ window.stop := by
  rcases h.stop with ⟨hlt, -⟩ | hsize <;> omega

/-- The parts of a text that a window cuts it into. An offset that is at the end of the window is
at the end of the text. -/
structure Cuts (window : LineWindow) (t : Text) (o : Nat) (before lines after : Text) : Prop where
  text_eq : t = before ++ (lines ++ after)
  start_eq : window.start = Text.size before
  stop_eq : window.stop = Text.size before + Text.size lines
  within : o < window.stop ∨ after = []

theorem Surrounds.exists_cuts (h : window.Surrounds t context o) (ho : o ≤ Text.size t) :
    ∃ before lines after, window.Cuts t o before lines after := by
  obtain ⟨before, rest, hbefore, hstart⟩ := LineIndex.isBoundary_of_lineStart? h.first
  have hboundary : t.IsBoundary window.stop := by
    rcases h.stop with ⟨-, hboundary⟩ | hsize
    · exact hboundary
    · exact ⟨t, [], (List.append_nil t).symm, hsize⟩
  obtain ⟨whole, after, hwhole, hstop⟩ := hboundary
  have hle : Text.size before ≤ Text.size whole := by
    have := h.start_le
    have := h.le_stop ho
    omega
  obtain ⟨lines, rfl, -⟩ := Text.exists_append_of_size_le (hbefore.symm.trans hwhole) hle
  refine ⟨before, lines, after, ?_, hstart, ?_, h.stop.imp And.left fun hsize => ?_⟩
  · rw [hwhole, List.append_assoc]
  · rw [hstop, Text.size_append]
  · have hrest := congrArg Text.size hwhole
    rw [Text.size_append] at hrest
    exact Text.eq_nil_of_size_eq_zero (by omega)

variable {before after : Text}

theorem Cuts.lines?_eq (h : window.Cuts t o before lines after) :
    window.lines? t = some lines := by
  have hbetween : Span.between window.start window.stop =
      .ok (Span.sized (Text.size before) (Text.size lines)) := by
    rw [h.start_eq, h.stop_eq]
    exact Span.between_start_stop (Span.sized _ _)
  rw [lines?, hbetween, h.text_eq, ← List.append_assoc]
  exact Text.slice?_append before lines after

/-- The line of the offset is as far behind the first line as there are line breaks in between. -/
theorem Cuts.lineOf_eq (h : window.Cuts t o before lines after)
    (hwindow : window.Surrounds t context o) (ho : o ≤ Text.size t) :
    (ofText t).lineOf o = window.firstLine + lines.lineBreaksUpTo (o - window.start) := by
  have hle := hwindow.start_le
  have hstop := hwindow.le_stop ho
  have hfirst := LineIndex.lineOf_of_lineStart? hwindow.first
  obtain ⟨htext, hstart, hsize, hwithin⟩ := h
  have hplace : Text.size before + (o - window.start) = o := by omega
  have hend : o - window.start < Text.size lines ∨ after = [] :=
    hwithin.imp_left fun hlt => by omega
  have hcount := Text.lineBreaksUpTo_piece htext (by omega) hend
  rw [hplace] at hcount
  rw [hstart, Text.lineOf_eq_lineBreaksUpTo] at hfirst
  rw [Text.lineOf_eq_lineBreaksUpTo, hcount]
  omega

end LineWindow

end Verbatim
