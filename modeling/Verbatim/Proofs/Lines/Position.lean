import Verbatim.Proofs.Lines.Partition

/-!
# Offsets and positions

Where a text can be cut it is cut within a line or, behind the line, within the pair that ends it.
A column counts what stands between the start of the line and the cut, and so tells all the cuts
of one line apart; but the text of the line alone, by which a column is turned into an offset,
stops in front of the pair.
-/

namespace Verbatim

/-- Positions are in order by their lines, and on one line by their columns. -/
def Position.Before (p q : Position) : Prop :=
  p.line < q.line ∨ p.line = q.line ∧ p.column < q.column

namespace Text

open LineIndex (OnLine ofText)

variable {t before line br after read rest : Text} {l c o p : Nat}

/-- The offset is between a carriage return and the line feed that follows it. -/
def SplitsPair (t : Text) (offset : Nat) : Prop :=
  ∃ before after, t = before ++ '\r' :: '\n' :: after ∧ offset = size before + 1

/-! ## From offsets to positions -/

theorem positionOf_eq (h : t = before ++ (read ++ rest))
    (hstart : (ofText t).lineStart? l = some (size before))
    (hl : (ofText t).OnLine l (size (before ++ read))) :
    t.positionOf (size (before ++ read)) = ⟨l, read.length + 1⟩ := by
  have hsize : min (size (before ++ read)) (size t) - size before = size read := by
    rw [h]
    simp only [size_append]
    omega
  have hbetween : (t.dropBytes? (size before)).bind (takeBytes? (size read)) = some read := by
    rw [h, dropBytes?_size_append, Option.bind_some, takeBytes?_size_append]
  simp only [positionOf, ← LineIndex.onLine_iff.mp hl, hstart, Option.getD_some, hsize, hbetween,
    Option.map_some]

/-- The column of a cut counts the characters between the start of its line and the cut. -/
theorem exists_positionOf (h : t.IsBoundary o) :
    ∃ before read rest, t = before ++ (read ++ rest) ∧ o = size (before ++ read) ∧
      (ofText t).lineStart? ((ofText t).lineOf o) = some (size before) ∧
      t.positionOf o = ⟨(ofText t).lineOf o, read.length + 1⟩ := by
  have hl := LineIndex.onLine_lineOf t o
  obtain ⟨start, hstart, hle⟩ := hl.begins
  obtain ⟨before, line, br, after, hline, rfl⟩ := exists_isLine hstart
  obtain ⟨front, rest, htext, rfl⟩ := h
  obtain ⟨read, rfl, -⟩ := exists_append_of_size_le (hline.text_eq.symm.trans htext) hle
  rw [List.append_assoc] at htext
  exact ⟨before, read, rest, htext, rfl, hstart, positionOf_eq htext hstart hl⟩

theorem positionOf_before (ho : t.IsBoundary o) (hp : t.IsBoundary p) (h : o < p) :
    (t.positionOf o).Before (t.positionOf p) := by
  obtain ⟨before, read, rest, htext, rfl, hstart, hpos⟩ := exists_positionOf ho
  obtain ⟨before', read', rest', htext', rfl, hstart', hpos'⟩ := exists_positionOf hp
  rw [hpos, hpos']
  rcases (LineIndex.lineOf_mono h.le).lt_or_eq with hlt | heq
  · exact .inl hlt
  · -- both cuts are counted from the start of one line
    rw [heq] at hstart
    have hsize := Option.some.inj (hstart.symm.trans hstart')
    obtain ⟨rfl, hrest⟩ := append_inj_of_size (htext.symm.trans htext') hsize
    simp only [size_append] at h
    obtain ⟨more, rfl, -⟩ := exists_append_of_size_le hrest (by omega)
    have hmore : more ≠ [] := by
      rintro rfl
      simp at h
    have hlength := List.length_pos_iff.mpr hmore
    refine .inr ⟨heq, ?_⟩
    simp only [List.length_append]
    omega

/-! ## From positions to offsets -/

theorem IsLine.offsetOf_eq (h : t.IsLine l before line br after) (hc : 0 < c) :
    t.offsetOf ⟨l, c⟩ = size (before ++ line.take (c - 1)) := by
  have hl := (LineIndex.lineStart?_isSome_iff.mp (Option.isSome_of_eq_some h.start)).1
  have hspan := h.lineSpan?_eq
  simp only [offsetOf, Nat.max_eq_left hl, Nat.max_eq_left hc]
  split at hspan
  next hend =>
    -- nothing is behind the start of the line, so it is empty
    have hsize := h.size_eq
    obtain rfl : line = [] := eq_nil_of_size_eq_zero (by omega)
    rw [hspan, List.take_nil, List.append_nil]
    exact hend.1.symm
  next =>
    simp only [hspan, h.slice?_line, Option.getD_some, size_append]
    rfl

/-! ## Within a line -/

theorem IsLine.onLine (h : t.IsLine l before line br after) (hread : read <+: line) :
    (ofText t).OnLine l (size (before ++ read)) := by
  obtain ⟨more, rfl⟩ := hread
  constructor
  · refine ⟨size before, h.start, ?_⟩
    rw [size_append]
    omega
  · intro next hnext
    rcases h.next with ⟨-, -, hnone⟩ | ⟨hbreak, hstart⟩
    · rw [hnone] at hnext
      cases hnext
    · rw [hstart] at hnext
      cases hnext
      have := hbreak.size_pos
      simp only [size_append]
      omega

/-- A cut behind the text of its line is within the pair that ends it. -/
theorem IsLine.isPrefix_or (h : t.IsLine l before line br after)
    (htext : t = before ++ (read ++ rest)) (hl : (ofText t).OnLine l (size (before ++ read))) :
    read <+: line ∨ read = line ++ ['\r'] ∧ br = ['\r', '\n'] := by
  have hrest : read ++ rest = line ++ (br ++ after) :=
    List.append_cancel_left (htext.symm.trans h.text_eq)
  rcases le_total (size read) (size line) with hle | hle
  · obtain ⟨more, rfl, -⟩ := exists_append_of_size_le hrest hle
    exact .inl (List.prefix_append read more)
  · obtain ⟨more, rfl, hmore⟩ := exists_append_of_size_le hrest.symm hle
    cases more with
    | nil =>
      rw [List.append_nil]
      exact .inl (List.prefix_refl line)
    | cons d more =>
      rcases h.next with ⟨rfl, rfl, -⟩ | ⟨hbreak, hnext⟩
      · cases hmore
      · -- the break is longer than what is read of it, which is one character at least
        have hbefore := hl.ends _ hnext
        have hd := d.utf8Size_pos
        simp only [size_append, size_cons] at hbefore
        rcases hbreak with rfl | rfl | ⟨rfl, -⟩
        · have hsize : size ['\n'] = 1 := rfl
          omega
        · have hsize : size ['\r', '\n'] = 2 := rfl
          obtain rfl : more = [] := eq_nil_of_size_eq_zero (by omega)
          cases hmore
          exact .inr ⟨rfl, rfl⟩
        · have hsize : size ['\r'] = 1 := rfl
          omega

/-- A cut within a pair has its two characters on its two sides. -/
theorem SplitsPair.exists_ends (h : t.SplitsPair (size before)) (ht : t = before ++ after) :
    ∃ front back, before = front ++ ['\r'] ∧ after = '\n' :: back := by
  obtain ⟨front, back, hpair, hsize⟩ := h
  have hcut : before ++ after = (front ++ ['\r']) ++ '\n' :: back := by
    rw [← ht, hpair, List.append_assoc]
    rfl
  have hfront : size before = size (front ++ ['\r']) := by
    rw [hsize, size_append]
    rfl
  obtain ⟨rfl, rfl⟩ := append_inj_of_size hcut hfront
  exact ⟨front, back, rfl, rfl⟩

theorem SplitsPair.isBoundary (h : t.SplitsPair o) : t.IsBoundary o := by
  obtain ⟨front, back, rfl, rfl⟩ := h
  refine ⟨front ++ ['\r'], '\n' :: back, ?_, ?_⟩
  · rw [List.append_assoc]
    rfl
  · rw [size_append]
    rfl

theorem not_splitsPair_of_lineStart? (h : (ofText t).lineStart? l = some o) : ¬ t.SplitsPair o := by
  intro hsplit
  have hpos : 0 < o := by
    obtain ⟨front, back, -, rfl⟩ := hsplit
    exact Nat.succ_pos _
  have hmem := LineIndex.mem_starts_of_lineStart? h
  obtain ⟨before, after, htext, rfl, hbreak⟩ := (mem_starts_iff hpos).mp hmem
  obtain ⟨front, back, rfl, rfl⟩ := hsplit.exists_ends htext
  simp [BreaksBetween] at hbreak

theorem IsLine.not_splitsPair (h : t.IsLine l before line br after) (hread : read <+: line) :
    ¬ t.SplitsPair (size (before ++ read)) := by
  intro hsplit
  rcases List.eq_nil_or_concat' read with rfl | ⟨init, d, rfl⟩
  · rw [List.append_nil] at hsplit
    exact not_splitsPair_of_lineStart? h.start hsplit
  · -- the line would have the carriage return
    have hd := h.unbroken d (hread.subset (by simp))
    obtain ⟨more, rfl⟩ := hread
    have htext : t = (before ++ (init ++ [d])) ++ (more ++ (br ++ after)) := by
      rw [h.text_eq]
      simp only [List.append_assoc]
    obtain ⟨front, back, hfront, -⟩ := hsplit.exists_ends htext
    rw [← List.append_assoc] at hfront
    obtain ⟨-, hlast⟩ := List.append_inj' hfront rfl
    cases hlast
    cases hd

/-! ## There and back -/

/-- From an offset to its position and back, a pair takes the offset to the front of it. -/
theorem offsetOf_positionOf (h : t.IsBoundary o) :
    ¬ t.SplitsPair o ∧ t.offsetOf (t.positionOf o) = o ∨
      t.SplitsPair o ∧ t.offsetOf (t.positionOf o) = o - 1 := by
  have hl := LineIndex.onLine_lineOf t o
  obtain ⟨before, read, rest, htext, rfl, hstart, hpos⟩ := exists_positionOf h
  obtain ⟨before', line, br, after, hline, hsize⟩ := exists_isLine hstart
  obtain ⟨rfl, -⟩ := append_inj_of_size (htext.symm.trans hline.text_eq) hsize
  rw [hpos, hline.offsetOf_eq (by omega : 0 < read.length + 1), Nat.add_sub_cancel]
  rcases hline.isPrefix_or htext hl with hread | ⟨rfl, rfl⟩
  · rw [← List.prefix_iff_eq_take.mp hread]
    exact .inl ⟨hline.not_splitsPair hread, rfl⟩
  · have hpair : size (before ++ (line ++ ['\r'])) = size (before ++ line) + 1 := by
      rw [← List.append_assoc, size_append]
      rfl
    rw [List.take_of_length_le (by simp), hpair]
    refine .inr ⟨⟨before ++ line, after, ?_, rfl⟩, rfl⟩
    rw [List.append_assoc]
    exact hline.text_eq

/-- From a position to its offset and back, a column past the line gets to the end of it. -/
theorem positionOf_offsetOf (hl : 1 ≤ l) (hle : l ≤ max 1 (lineCount t)) (hc : 1 ≤ c) :
    t.positionOf (t.offsetOf ⟨l, c⟩) = ⟨l, min c ((t.lineText l).length + 1)⟩ := by
  have hspan : (t.lineSpan? l).isSome = true := lineSpan?_isSome_iff.mpr ⟨hl, hle⟩
  obtain ⟨a, ha⟩ := Option.isSome_iff_exists.mp hspan
  obtain ⟨before, line, br, after, hline, -⟩ := exists_isLine_of_lineSpan? ha
  have htext : t = before ++ (line.take (c - 1) ++ (line.drop (c - 1) ++ (br ++ after))) := by
    rw [← List.append_assoc (line.take (c - 1)), List.take_append_drop]
    exact hline.text_eq
  have hcolumn : min (c - 1) line.length + 1 = min c (line.length + 1) := by omega
  rw [hline.offsetOf_eq hc, hline.lineText_eq hspan,
    positionOf_eq htext hline.start (hline.onLine (List.take_prefix (c - 1) line)),
    List.length_take, hcolumn]

/-- How the offsets of a text and its positions are turned into each other. -/
structure PositionsConvert (t : Text) : Prop where
  offset : ∀ o, t.IsBoundary o → ¬ t.SplitsPair o → t.offsetOf (t.positionOf o) = o
  pair : ∀ o, t.SplitsPair o → t.offsetOf (t.positionOf o) = o - 1
  increasing : ∀ o p, t.IsBoundary o → t.IsBoundary p → o < p →
    (t.positionOf o).Before (t.positionOf p)
  position : ∀ l c, 1 ≤ l → l ≤ max 1 (lineCount t) → 1 ≤ c →
    t.positionOf (t.offsetOf ⟨l, c⟩) = ⟨l, min c ((t.lineText l).length + 1)⟩

/-- The offsets and positions of every text convert back and forth. -/
theorem positions_convert (t : Text) : t.PositionsConvert where
  offset o ho hpair := by
    rcases offsetOf_positionOf ho with ⟨-, hback⟩ | ⟨hsplit, -⟩
    · exact hback
    · exact absurd hsplit hpair
  pair o hpair := by
    rcases offsetOf_positionOf hpair.isBoundary with ⟨hwhole, -⟩ | ⟨-, hback⟩
    · exact absurd hpair hwhole
    · exact hback
  increasing _ _ := positionOf_before
  position _ _ := positionOf_offsetOf

example : offsetOf "a\r\nb".toList (positionOf "a\r\nb".toList 2) = 1 := by decide

end Text

end Verbatim
