import Verbatim.Proofs.Lines.Window

/-!
# Lines and positions in words

A text has at most one line more than it has bytes, and a column at most one character more. So
every number that the line index and the conversions of positions answer with is a word as long as
the size of the text is not the greatest word. A text of line feeds has as many lines as a text of
its size can have.
-/

namespace Verbatim

open LineIndex (ofText)

variable {t : Text} {l n o : Nat}

/-! ## Bounds by the size -/

theorem LineIndex.length_starts_le : (ofText t).starts.length ≤ Text.size t + 1 := by
  rw [← lineOf_of_size_le le_rfl]
  exact lineOf_le

namespace Text

theorem lineCount_le_length : lineCount t ≤ (ofText t).starts.length := by
  by_cases h : t = []
  · subst h
    exact Nat.zero_le _
  · have hlength := LineIndex.length_starts h
    omega

theorem positionOf_column_le : (t.positionOf o).column ≤ size t + 1 := by
  dsimp only [positionOf]
  rcases hbefore : (dropBytes? _ t).bind (takeBytes? _) with _ | before
  · simp
  · obtain ⟨rest, hdrop, htake⟩ := Option.bind_eq_some_iff.mp hbefore
    obtain ⟨front, rfl, -⟩ := dropBytes?_eq_some hdrop
    obtain ⟨after, rfl, -⟩ := takeBytes?_eq_some htake
    have hlength := before.length_le_size
    simp only [Option.map_some, Option.getD_some, size_append]
    omega

theorem lineSpan?_stop_le {a : Span} (h : t.lineSpan? l = some a) : a.stop ≤ size t := by
  obtain ⟨before, line, br, after, hline, rfl⟩ := exists_isLine_of_lineSpan? h
  have hsize := hline.size_eq
  simp only [Span.sized]
  omega

theorem offsetOf_le_size (p : Position) : t.offsetOf p ≤ size t := by
  rcases hspan : t.lineSpan? (max p.line 1) with _ | a
  · rw [offsetOf, hspan]
  · obtain ⟨before, line, br, after, hline, rfl⟩ := exists_isLine_of_lineSpan? hspan
    have hsize := hline.size_eq
    have htake := size_append (line.take (max p.column 1 - 1)) (line.drop (max p.column 1 - 1))
    rw [List.take_append_drop] at htake
    have hoffset : t.offsetOf p = size before + size (line.take (max p.column 1 - 1)) := by
      simp only [offsetOf, hspan, hline.slice?_line, Option.getD_some]
      rfl
    omega

/-! ## Words -/

/-- All that the line index of a text and the conversions of its positions answer with are words. -/
structure InWords (t : Text) : Prop where
  size : (ofText t).size < UInt32.size
  start : ∀ start ∈ (ofText t).starts, start < UInt32.size
  starts : (ofText t).starts.length < UInt32.size
  count : lineCount t < UInt32.size
  line : ∀ o, (ofText t).lineOf o < UInt32.size
  position : ∀ o, (t.positionOf o).line < UInt32.size ∧ (t.positionOf o).column < UInt32.size
  offset : ∀ p, t.offsetOf p < UInt32.size
  span : ∀ l a, t.lineSpan? l = some a → a.stop < UInt32.size
  range : ∀ a, (t.lineRange a).1 < UInt32.size ∧ (t.lineRange a).2 < UInt32.size

/-- Nothing wraps in a text whose size is less than the greatest word. -/
theorem inWords_of_size_lt (h : Text.size t < UInt32.size - 1) : t.InWords := by
  have hstarts := LineIndex.length_starts_le (t := t)
  have hline (o : Nat) : (ofText t).lineOf o < UInt32.size := by
    have hle : (ofText t).lineOf o ≤ (ofText t).starts.length := LineIndex.lineOf_le_length
    omega
  constructor
  · exact h.trans_le (Nat.sub_le _ _)
  · intro start hstart
    have hle := LineIndex.mem_starts_le hstart
    omega
  · omega
  · have hcount := lineCount_le_length (t := t)
    omega
  · exact hline
  · intro o
    refine ⟨hline o, ?_⟩
    have hcolumn := positionOf_column_le (t := t) (o := o)
    omega
  · intro p
    have hoffset := offsetOf_le_size (t := t) p
    omega
  · intro l a hspan
    have hstop := lineSpan?_stop_le hspan
    omega
  · exact fun a => ⟨hline _, hline _⟩

/-! ## Line feeds -/

theorem size_lineFeeds (n : Nat) : size (List.replicate n '\n') = n := by
  induction n with
  | zero => rfl
  | succ n ih =>
    have hfeed : '\n'.utf8Size = 1 := rfl
    rw [List.replicate_succ, size_cons, ih, hfeed, Nat.add_comm]

theorem lineStartsAfter_lineFeeds (offset n : Nat) :
    lineStartsAfter offset (List.replicate n '\n') = List.range' (offset + 1) n := by
  induction n generalizing offset with
  | zero => rfl
  | succ n ih =>
    have hbreak : IsBreak ['\n'] (List.replicate n '\n') := .inl rfl
    rw [List.replicate_succ, ← List.singleton_append, lineStartsAfter_of_isBreak hbreak,
      List.range'_succ]
    exact congrArg _ (ih (offset + 1))

end Text

namespace LineIndex

theorem lineStart?_lineFeeds (h : l ≤ n) :
    (ofText (List.replicate n '\n')).lineStart? (l + 1) = some l := by
  have hstarts : (ofText (List.replicate n '\n')).starts = List.range' 0 (n + 1) := by
    rw [ofText, Text.lineStartsAfter_lineFeeds, List.range'_succ]
  rw [lineStart?, if_neg l.succ_ne_zero, hstarts, Nat.add_sub_cancel,
    List.getElem?_range' (Nat.lt_succ_of_le h), Nat.one_mul, Nat.zero_add]

theorem lineOf_lineFeeds (n : Nat) : (ofText (List.replicate n '\n')).lineOf n = n + 1 :=
  lineOf_of_lineStart? (lineStart?_lineFeeds le_rfl)

end LineIndex

end Verbatim
