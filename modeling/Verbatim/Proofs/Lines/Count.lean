import Verbatim.Proofs.Lines.Index

/-!
# The number of lines

A line break at the very end of a text is followed by a start in the index, and by no line that
counts. The line of an offset is looked up among the starts, so the offsets from there on are on a
line past the last one, and all others are on a line that counts.
-/

namespace Verbatim

namespace Text

variable {t before line br after : Text} {l offset : Nat}

def endsInBreak (t : Text) : Bool :=
  t.getLast?.any isLineBreak

theorem size_pos (h : t ≠ []) : 0 < size t := by
  rw [Nat.pos_iff_ne_zero]
  exact fun hsize => h (eq_nil_of_size_eq_zero hsize)

/-- A line break stops at the end of a text just if the text ends in one. -/
theorem lineBreakStopsAt_size_iff : t.LineBreakStopsAt (size t) ↔ t.endsInBreak = true := by
  have hends : t.endsInBreak = true ↔ BreaksBetween t [] := by
    simp only [endsInBreak, Option.any_eq_true, isLineBreak, Bool.or_eq_true, beq_iff_eq]
    constructor
    · rintro ⟨c, hc, rfl | rfl⟩
      · exact .inr ⟨hc, by simp⟩
      · exact .inl hc
    · rintro (hc | ⟨hc, -⟩)
      · exact ⟨'\n', hc, .inr rfl⟩
      · exact ⟨'\r', hc, .inl rfl⟩
  rw [hends]
  constructor
  · rintro ⟨before, after, rfl, hsize, hbreak⟩
    rw [size_append] at hsize
    obtain rfl : after = [] := eq_nil_of_size_eq_zero (by omega)
    rwa [List.append_nil]
  · exact fun hbreak => ⟨t, [], by simp, rfl, hbreak⟩

end Text

namespace LineIndex

open Text

variable {t : Text} {l offset : Nat}

theorem lineStart?_isSome_iff :
    ((ofText t).lineStart? l).isSome = true ↔ 0 < l ∧ l ≤ (ofText t).starts.length := by
  cases l with
  | zero => simp [lineStart?]
  | succ k =>
    change ((ofText t).starts[k]?).isSome = true ↔ _
    rw [isSome_getElem?]
    omega

theorem mem_starts_le {start : Nat} (h : start ∈ (ofText t).starts) : start ≤ Text.size t := by
  obtain ⟨k, hk⟩ := List.mem_iff_getElem?.mp h
  exact lineStart?_eq_some_le (l := k + 1) hk

/-- The greatest of the starts is the last one. -/
theorem getLast?_starts_iff :
    (ofText t).starts.getLast? = some (Text.size t) ↔ Text.size t ∈ (ofText t).starts := by
  constructor
  · exact List.mem_of_getLast?
  · intro hmem
    have hsorted := pairwise_starts t
    obtain ⟨init, last, hsplit⟩ := List.eq_nil_or_concat' (ofText t).starts |>.resolve_left
      (List.ne_nil_of_mem hmem)
    have hlast : last ≤ Text.size t := mem_starts_le (by simp [hsplit])
    rw [hsplit] at hmem hsorted ⊢
    rcases List.mem_append.mp hmem with hinit | hsize
    · have := (List.pairwise_append.mp hsorted).2.2 _ hinit last (List.mem_singleton_self last)
      omega
    · rw [List.mem_singleton.mp hsize, List.getLast?_concat]

/-- The starts are those of the lines that count, and one more behind a line break at the end. -/
theorem length_starts (h : t ≠ []) :
    (ofText t).starts.length = lineCount t + if t.endsInBreak = true then 1 else 0 := by
  have hsize := Text.size_pos h
  have hlast : (ofText t).starts.getLast? = some (ofText t).size ↔ t.endsInBreak = true := by
    rw [← lineBreakStopsAt_size_iff, ← mem_starts_iff hsize]
    exact getLast?_starts_iff
  have hpos : 0 < (ofText t).starts.length := Nat.succ_pos _
  have hne : (ofText t).size ≠ 0 := hsize.ne'
  simp only [lineCount, count, hne, hlast, if_false]
  split <;> omega

/-- From its end on, the whole text is in front. -/
theorem lineOf_of_size_le (h : Text.size t ≤ offset) :
    (ofText t).lineOf offset = (ofText t).starts.length := by
  rw [lineOf_eq_countP, List.countP_eq_length]
  intro start hstart
  have hle := mem_starts_le hstart
  simp only [decide_eq_true_eq]
  omega

theorem lineOf_le_length : (ofText t).lineOf offset ≤ (ofText t).starts.length := by
  rw [lineOf_eq_countP]
  exact List.countP_le_length

/-- In front of the end, a line break at the end is still to come. -/
theorem lineOf_lt_length (hends : t.endsInBreak = true) (h : offset < Text.size t) :
    (ofText t).lineOf offset < (ofText t).starts.length := by
  rw [lineOf_eq_countP]
  by_contra hlt
  have hmem : Text.size t ∈ (ofText t).starts := by
    rwa [mem_starts_iff (by omega), lineBreakStopsAt_size_iff]
  have hall := List.countP_eq_length.mp (le_antisymm List.countP_le_length (not_lt.mp hlt)) _ hmem
  simp only [decide_eq_true_eq] at hall
  omega

/-- In a text that is not empty, an offset is on one of the lines that count unless the text ends
in a line break and the offset is at its end or behind it. From the end on, all offsets are on the
last line, or on one more than there are. -/
theorem lineOf_le_lineCount_iff (h : t ≠ []) :
    0 < (ofText t).lineOf offset ∧
      ((ofText t).lineOf offset ≤ lineCount t ↔
        ¬ (t.endsInBreak = true ∧ Text.size t ≤ offset)) ∧
      (Text.size t ≤ offset →
        (ofText t).lineOf offset = lineCount t + if t.endsInBreak = true then 1 else 0) := by
  have hlength := length_starts h
  have hle : (ofText t).lineOf offset ≤ (ofText t).starts.length := lineOf_le_length
  have hbefore : t.endsInBreak = true → offset < Text.size t →
      (ofText t).lineOf offset < (ofText t).starts.length := lineOf_lt_length
  have hbehind : Text.size t ≤ offset → (ofText t).lineOf offset = (ofText t).starts.length :=
    lineOf_of_size_le
  rw [hlength] at hle hbefore hbehind
  refine ⟨lineOf_pos, ?_, hbehind⟩
  cases hends : t.endsInBreak with
  | false =>
    rw [hends, if_neg Bool.false_ne_true] at hle
    simpa using hle
  | true =>
    rw [hends, if_pos rfl] at hbefore hbehind
    have := hbefore rfl
    simp only [true_and, not_le]
    omega

theorem lineOf_le_lineCount_of_line :
    "a\n".toList ≠ [] ∧ 0 < (ofText "a\n".toList).lineOf 1 ∧
      (ofText "a\n".toList).lineOf 1 ≤ lineCount "a\n".toList := by
  have hne : "a\n".toList ≠ [] := by decide
  obtain ⟨hpos, hle, -⟩ := @lineOf_le_lineCount_iff _ 1 hne
  exact ⟨hne, hpos, hle.mpr (by decide)⟩

/-- Behind its line break, a single line is followed by a second one in the lookup alone. -/
theorem lineOf_past_final_break :
    Text.size "a\n".toList < 3 ∧ (ofText "a\n".toList).lineOf 3 = 2 ∧
      lineCount "a\n".toList = 1 := by
  decide

end LineIndex

end Verbatim
