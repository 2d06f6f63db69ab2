import Mathlib.Order.Bounds.Basic
import Verbatim.Proofs.Lines.Count

/-!
# Lines partition a text

The lines of the index lie next to each other, each with the one line break behind it, and cover
the whole text. Every offset is on the line that the lookup finds, and a span reaches from the line
of its first byte to that of its last.
-/

namespace Verbatim

namespace Text

open LineIndex (OnLine ofText)

variable {t before line br after : Text} {l k : Nat} {a : Span}

/-! ## Spans of lines -/

theorem exists_isLine_of_lineSpan? (h : t.lineSpan? l = some a) :
    ∃ before line br after, t.IsLine l before line br after ∧
      a = Span.sized (size before) (size line) := by
  obtain ⟨start, hstart, -⟩ := Option.bind_eq_some_iff.mp h
  obtain ⟨before, line, br, after, hline, -⟩ := exists_isLine hstart
  rw [hline.lineSpan?_eq] at h
  split at h
  · cases h
  · cases h
    exact ⟨before, line, br, after, hline, rfl⟩

/-- Only a line break at the end has a start behind it that is the end, and no line counts there. -/
theorem lineStart?_eq_size_iff (h : t ≠ []) :
    (ofText t).lineStart? l = some (size t) ↔ l = lineCount t + 1 ∧ t.endsInBreak = true := by
  have hlength := LineIndex.length_starts h
  constructor
  · intro hstart
    have hmem := LineIndex.mem_starts_of_lineStart? hstart
    have hends := lineBreakStopsAt_size_iff.mp ((mem_starts_iff (size_pos h)).mp hmem)
    rw [if_pos hends] at hlength
    have hsome := LineIndex.lineStart?_isSome_iff.mp (Option.isSome_of_eq_some hstart)
    -- nothing is left behind the start, so there is no next line
    obtain ⟨before, line, br, after, hline, hbefore⟩ := exists_isLine hstart
    have hsize := hline.size_eq
    have hlast : ¬ (l + 1 ≤ (ofText t).starts.length) := by
      intro hnext
      have hsome := LineIndex.lineStart?_isSome_iff.mpr ⟨Nat.succ_pos l, hnext⟩
      rcases hline.next with ⟨-, -, hnone⟩ | ⟨hbreak, -⟩
      · rw [hnone] at hsome
        cases hsome
      · have := hbreak.size_pos
        omega
    exact ⟨by omega, hends⟩
  · rintro ⟨rfl, hends⟩
    rw [if_pos hends] at hlength
    have hlast := LineIndex.getLast?_starts_iff.mpr
      ((mem_starts_iff (size_pos h)).mpr (lineBreakStopsAt_size_iff.mpr hends))
    rwa [List.getLast?_eq_getElem?, hlength] at hlast

theorem lineCount_pos (h : t ≠ []) : 0 < lineCount t := by
  have hlength := LineIndex.length_starts h
  have hpos : 0 < (ofText t).starts.length := Nat.succ_pos _
  rw [Nat.pos_iff_ne_zero]
  intro hzero
  split at hlength
  next hends =>
    have hstart := (lineStart?_eq_size_iff h (l := 1)).mpr ⟨by omega, hends⟩
    rw [LineIndex.lineStart?_one] at hstart
    exact (size_pos h).ne (Option.some.inj hstart)
  next => omega

theorem lineSpan?_isSome_iff_lineStart? :
    (t.lineSpan? l).isSome = true ↔
      ((ofText t).lineStart? l).isSome = true ∧
        ¬ ((ofText t).lineStart? l = some (size t) ∧ 1 < l) := by
  rw [lineSpan?]
  cases (ofText t).lineStart? l with
  | none => simp
  | some start => simp

theorem lineSpan?_isSome_iff :
    (t.lineSpan? l).isSome = true ↔ 0 < l ∧ l ≤ max 1 (lineCount t) := by
  rw [lineSpan?_isSome_iff_lineStart?, LineIndex.lineStart?_isSome_iff]
  by_cases h : t = []
  · subst h
    have hlength : (ofText []).starts.length = 1 := rfl
    have hcount : lineCount [] = 0 := rfl
    omega
  · have hlength := LineIndex.length_starts h
    have hpos := lineCount_pos h
    rw [lineStart?_eq_size_iff h]
    split at hlength
    next hends =>
      simp only [hends, and_true]
      omega
    next hends =>
      simp only [hends]
      omega

/-- The next start behind the lines that count is the end of the text, if there is one. -/
theorem lineStart?_behind_last :
    ((ofText t).lineStart? (max 1 (lineCount t) + 1)).getD (size t) = size t := by
  by_cases h : t = []
  · subst h
    rfl
  · rcases hstart : (ofText t).lineStart? (max 1 (lineCount t) + 1) with _ | start
    · rfl
    · have hsome := LineIndex.lineStart?_isSome_iff.mp (Option.isSome_of_eq_some hstart)
      have hlength := LineIndex.length_starts h
      have hpos := lineCount_pos h
      have hends : t.endsInBreak = true := by
        by_contra hends
        rw [if_neg hends] at hlength
        omega
      rw [(lineStart?_eq_size_iff h).mpr ⟨by omega, hends⟩] at hstart
      exact (Option.some.inj hstart).symm

/-! ## Texts of lines -/

/-- The text of a line by its span. -/
def lineText (t : Text) (l : Nat) : Text :=
  ((t.lineSpan? l).bind t.slice?).getD []

/-- The text between a line and the start of the next one, or the end of the text. -/
def breakText (t : Text) (l : Nat) : Text :=
  ((t.lineSpan? l).bind fun a =>
    t.slice? (Span.upTo a.stop (((ofText t).lineStart? (l + 1)).getD (size t)))).getD []

theorem IsLine.next_start (h : t.IsLine l before line br after) :
    ((ofText t).lineStart? (l + 1)).getD (size t) = size before + size line + size br := by
  have hsize := h.size_eq
  rcases h.next with ⟨rfl, rfl, hnone⟩ | ⟨-, hnext⟩
  · rw [hnone, Option.getD_none, hsize]
    rfl
  · rw [hnext, Option.getD_some]

theorem IsLine.lineText_eq (h : t.IsLine l before line br after)
    (hspan : (t.lineSpan? l).isSome = true) : t.lineText l = line := by
  rw [h.lineSpan?_eq] at hspan
  split at hspan
  · cases hspan
  next hsome => rw [lineText, h.lineSpan?_eq, if_neg hsome, Option.bind_some, h.slice?_line]; rfl

theorem IsLine.breakText_eq (h : t.IsLine l before line br after)
    (hspan : (t.lineSpan? l).isSome = true) : t.breakText l = br := by
  rw [h.lineSpan?_eq] at hspan
  split at hspan
  · cases hspan
  next hsome =>
    have hupTo : Span.upTo (size before + size line) (size before + size line + size br) =
        Span.sized (size before + size line) (size br) := by
      simp [Span.upTo, Span.sized]
    rw [breakText, h.lineSpan?_eq, if_neg hsome, Option.bind_some, h.next_start]
    change (t.slice? (Span.upTo (size before + size line) _)).getD [] = br
    rw [hupTo, h.slice?_break]
    rfl

/-- The first lines with their breaks are what stands in front of the next line. -/
theorem exists_flatMap_lines (hk : k ≤ max 1 (lineCount t)) :
    ∃ rest, t = ((List.range k).flatMap fun k => t.lineText (k + 1) ++ t.breakText (k + 1)) ++ rest ∧
      size ((List.range k).flatMap fun k => t.lineText (k + 1) ++ t.breakText (k + 1)) =
        ((ofText t).lineStart? (k + 1)).getD (size t) := by
  induction k with
  | zero => exact ⟨t, rfl, rfl⟩
  | succ k ih =>
    obtain ⟨rest, htext, hsize⟩ := ih (by omega)
    have hspan : (t.lineSpan? (k + 1)).isSome = true :=
      lineSpan?_isSome_iff.mpr ⟨Nat.succ_pos k, hk⟩
    obtain ⟨a, ha⟩ := Option.isSome_iff_exists.mp hspan
    obtain ⟨before, line, br, after, hline, -⟩ := exists_isLine_of_lineSpan? ha
    rw [hline.start, Option.getD_some] at hsize
    obtain ⟨hbefore, -⟩ := append_inj_of_size (htext.symm.trans hline.text_eq) hsize
    refine ⟨after, ?_, ?_⟩
    · rw [List.range_succ, List.flatMap_append, hbefore, List.flatMap_singleton,
        hline.lineText_eq hspan, hline.breakText_eq hspan]
      simpa only [List.append_assoc] using hline.text_eq
    · rw [List.range_succ, List.flatMap_append, hbefore, List.flatMap_singleton,
        hline.lineText_eq hspan, hline.breakText_eq hspan, hline.next_start]
      simp only [size_append, Nat.add_assoc]

theorem flatMap_lines :
    (List.range (max 1 (lineCount t))).flatMap
      (fun k => t.lineText (k + 1) ++ t.breakText (k + 1)) = t := by
  obtain ⟨rest, htext, hsize⟩ := exists_flatMap_lines (t := t) le_rfl
  rw [lineStart?_behind_last] at hsize
  have hrest := congrArg size htext
  rw [size_append, hsize] at hrest
  obtain rfl : rest = [] := eq_nil_of_size_eq_zero (by omega)
  rw [List.append_nil] at htext
  exact htext.symm

/-! ## Spans on lines -/

/-- The line and the span have a byte of the text in common. -/
def SharesByte (t : Text) (a : Span) (l : Nat) : Prop :=
  ∃ offset, a.containsOffset offset = true ∧ offset < size t ∧ (ofText t).OnLine l offset

theorem isLeast_lineRange (h : a.start < a.stop) (hstop : a.stop ≤ size t) :
    IsLeast {l | t.SharesByte a l} (t.lineRange a).1 := by
  constructor
  · refine ⟨a.start, ?_, by omega, LineIndex.onLine_lineOf t _⟩
    exact Span.containsOffset_iff.mpr ⟨le_rfl, h⟩
  · rintro l ⟨offset, hoffset, -, hl⟩
    rw [LineIndex.onLine_iff.mp hl]
    exact LineIndex.lineOf_mono (Span.containsOffset_iff.mp hoffset).1

theorem isGreatest_lineRange (h : a.start < a.stop) (hstop : a.stop ≤ size t) :
    IsGreatest {l | t.SharesByte a l} (t.lineRange a).2 := by
  have hlast : max (a.stop - 1) a.start = a.stop - 1 := by omega
  rw [lineRange, hlast]
  constructor
  · refine ⟨a.stop - 1, ?_, by omega, LineIndex.onLine_lineOf t _⟩
    exact Span.containsOffset_iff.mpr ⟨by omega, by omega⟩
  · rintro l ⟨offset, hoffset, -, hl⟩
    rw [LineIndex.onLine_iff.mp hl]
    have := (Span.containsOffset_iff.mp hoffset).2
    exact LineIndex.lineOf_mono (by omega)

/-! ## The partition -/

/-- How the lines of a text lie in it, by all that the line index tells of them. -/
structure LinesPartition (t : Text) : Prop where
  zero : (ofText t).starts.head? = some 0
  increasing : (ofText t).starts.Pairwise (· < ·)
  located : ∀ offset ≤ size t, ∀ l, (ofText t).OnLine l offset ↔ l = (ofText t).lineOf offset
  spans : ∀ l, (t.lineSpan? l).isSome = true ↔ 1 ≤ l ∧ l ≤ max 1 (lineCount t)
  unbroken : ∀ l a, t.lineSpan? l = some a →
    ∃ line, t.slice? a = some line ∧ '\r' ∉ line ∧ '\n' ∉ line
  next : ∀ l a next, t.lineSpan? l = some a → (ofText t).lineStart? (l + 1) = some next →
    ∃ br after, t.slice? (Span.sized a.stop (size br)) = some br ∧
      t.dropBytes? next = some after ∧ IsBreak br after ∧ next = a.stop + size br ∧
      (size br = 1 ∨ size br = 2)
  whole : (List.range (max 1 (lineCount t))).flatMap
    (fun k => t.lineText (k + 1) ++ t.breakText (k + 1)) = t
  ranges : ∀ a : Span, a.start < a.stop → a.stop ≤ size t →
    IsLeast {l | t.SharesByte a l} (t.lineRange a).1 ∧
      IsGreatest {l | t.SharesByte a l} (t.lineRange a).2

/-- The lines of every text partition it. -/
theorem lines_partition (t : Text) : t.LinesPartition where
  zero := rfl
  increasing := LineIndex.pairwise_starts t
  located _ _ _ := LineIndex.onLine_iff
  spans _ := lineSpan?_isSome_iff
  unbroken l a ha := by
    obtain ⟨before, line, br, after, hline, rfl⟩ := exists_isLine_of_lineSpan? ha
    refine ⟨line, hline.slice?_line, fun hmem => ?_, fun hmem => ?_⟩
    · cases hline.unbroken _ hmem
    · cases hline.unbroken _ hmem
  next l a next ha hnext := by
    obtain ⟨before, line, br, after, hline, rfl⟩ := exists_isLine_of_lineSpan? ha
    rcases hline.next with ⟨-, -, hnone⟩ | ⟨hbreak, hstart⟩
    · rw [hnone] at hnext
      cases hnext
    · rw [hstart] at hnext
      cases hnext
      refine ⟨br, after, hline.slice?_break, ?_, hbreak, rfl, hbreak.size_eq⟩
      rw [← size_append, ← size_append, hline.text_eq, ← List.append_assoc, ← List.append_assoc,
        dropBytes?_size_append]
  whole := flatMap_lines
  ranges _ h hstop := ⟨isLeast_lineRange h hstop, isGreatest_lineRange h hstop⟩

end Text

end Verbatim
