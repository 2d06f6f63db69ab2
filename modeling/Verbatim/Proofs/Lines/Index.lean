import Verbatim.Proofs.Lines.Search
import Verbatim.Proofs.Lines.Text

/-!
# The lines behind the line index

At each of its starts the index has a line: some text without a line break and, unless the text
ends there, one line break, behind which the next line starts. As the starts are in strict order,
the line of an offset is the one that starts last at or before it.
-/

namespace Verbatim

namespace Text

variable {t before line br after : Text} {c : Char} {offset start k : Nat}

/-! ## One line -/

/-- The parts of a text around its line `k`, counted from zero, where the starts of its lines are
counted from an offset. -/
structure IsLineAfter (offset : Nat) (t : Text) (k start : Nat) (before line br after : Text) :
    Prop where
  text_eq : t = before ++ (line ++ (br ++ after))
  start_eq : start = offset + size before
  unbroken : ∀ c ∈ line, isLineBreak c = false
  next : br = [] ∧ after = [] ∧ (offset :: lineStartsAfter offset t)[k + 1]? = none ∨
    IsBreak br after ∧
      (offset :: lineStartsAfter offset t)[k + 1]? = some (start + size line + size br)

/-! ### Where a line break comes first -/

theorem lineStartsAfter_of_isBreak (h : IsBreak br after) :
    lineStartsAfter offset (br ++ after) =
      (offset + size br) :: lineStartsAfter (offset + size br) after := by
  rcases h with rfl | rfl | ⟨rfl, hafter⟩
  · rfl
  · rfl
  · rw [List.singleton_append, lineStartsAfter]
    · rfl
    · rintro u - rfl
      exact hafter rfl

theorem isLineAfter_break (h : IsBreak br after) :
    IsLineAfter offset (br ++ after) 0 offset [] [] br after := by
  constructor
  · rfl
  · rfl
  · exact List.forall_mem_nil _
  · right
    rw [lineStartsAfter_of_isBreak h]
    exact ⟨h, rfl⟩

theorem IsLineAfter.behind_break {br' : Text} (hbreak : IsBreak br' t)
    (h : IsLineAfter (offset + size br') t k start before line br after) :
    IsLineAfter offset (br' ++ t) (k + 1) start (br' ++ before) line br after := by
  obtain ⟨rfl, hstart, hline, hnext⟩ := h
  constructor
  · rw [List.append_assoc]
  · rw [hstart, size_append, Nat.add_assoc]
  · exact hline
  · rwa [lineStartsAfter_of_isBreak hbreak]

/-! ### Where another character comes first -/

theorem lineStartsAfter_of_not_isLineBreak (h : isLineBreak c = false) :
    lineStartsAfter offset (c :: t) = lineStartsAfter (offset + c.utf8Size) t := by
  rw [lineStartsAfter]
  · rw [h]
    rfl
  · rintro u rfl
    cases h

/-- The character belongs to the first line, in front of all else in it. -/
theorem IsLineAfter.behind_char (hc : isLineBreak c = false)
    (h : IsLineAfter (offset + c.utf8Size) t 0 (offset + c.utf8Size) before line br after) :
    IsLineAfter offset (c :: t) 0 offset [] (c :: line) br after := by
  obtain ⟨rfl, hstart, hline, hnext⟩ := h
  obtain rfl : before = [] := eq_nil_of_size_eq_zero (by omega)
  constructor
  · rfl
  · rfl
  · exact List.forall_mem_cons.mpr ⟨hc, hline⟩
  · rw [lineStartsAfter_of_not_isLineBreak hc, size_cons, ← Nat.add_assoc]
    exact hnext

/-- The character stands in front of all other lines. -/
theorem IsLineAfter.behind_line (hc : isLineBreak c = false)
    (h : IsLineAfter (offset + c.utf8Size) t (k + 1) start before line br after) :
    IsLineAfter offset (c :: t) (k + 1) start (c :: before) line br after := by
  obtain ⟨rfl, hstart, hline, hnext⟩ := h
  constructor
  · rfl
  · rw [hstart, size_cons, Nat.add_assoc]
  · exact hline
  · rw [lineStartsAfter_of_not_isLineBreak hc]
    exact hnext

/-! ### Every line -/

theorem isBreak_singleton (hc : isLineBreak c = true)
    (hpair : ∀ u, c = '\r' → t = '\n' :: u → False) : IsBreak [c] t := by
  rw [isLineBreak, Bool.or_eq_true, beq_iff_eq, beq_iff_eq] at hc
  rcases hc with rfl | rfl
  · refine .inr (.inr ⟨rfl, fun hhead => ?_⟩)
    obtain ⟨u, rfl⟩ := List.head?_eq_some_iff.mp hhead
    exact hpair u rfl rfl
  · exact .inl rfl

theorem exists_isLineAfter_of_isBreak (hbreak : IsBreak br t)
    (ih : ∀ k start,
      ((offset + size br) :: lineStartsAfter (offset + size br) t)[k]? = some start →
        ∃ before line br' after, IsLineAfter (offset + size br) t k start before line br' after)
    (h : (offset :: lineStartsAfter offset (br ++ t))[k]? = some start) :
    ∃ before line br' after, IsLineAfter offset (br ++ t) k start before line br' after := by
  cases k with
  | zero =>
    cases h
    exact ⟨[], [], br, t, isLineAfter_break hbreak⟩
  | succ k =>
    rw [lineStartsAfter_of_isBreak hbreak] at h
    obtain ⟨before, line, br', after, hline⟩ := ih k start h
    exact ⟨br ++ before, line, br', after, hline.behind_break hbreak⟩

theorem exists_isLineAfter (h : (offset :: lineStartsAfter offset t)[k]? = some start) :
    ∃ before line br after, IsLineAfter offset t k start before line br after := by
  induction offset, t using lineStartsAfter.induct generalizing k start with
  | case1 offset =>
    cases k with
    | zero =>
      cases h
      exact ⟨[], [], [], [], rfl, rfl, List.forall_mem_nil _, .inl ⟨rfl, rfl, rfl⟩⟩
    | succ k => cases h
  | case2 offset t ih =>
    exact exists_isLineAfter_of_isBreak (.inr (.inl rfl)) (fun _ _ => ih) h
  | case3 offset c t hpair hbreak ih =>
    have hsingle := isBreak_singleton hbreak hpair
    rw [isLineBreak, Bool.or_eq_true, beq_iff_eq, beq_iff_eq] at hbreak
    rcases hbreak with rfl | rfl
    · exact exists_isLineAfter_of_isBreak hsingle (fun _ _ => ih) h
    · exact exists_isLineAfter_of_isBreak hsingle (fun _ _ => ih) h
  | case4 offset c t hpair hbreak ih =>
    rw [Bool.not_eq_true] at hbreak
    rw [lineStartsAfter_of_not_isLineBreak hbreak] at h
    cases k with
    | zero =>
      cases h
      obtain ⟨before, line, br, after, hline⟩ := ih (k := 0) rfl
      exact ⟨[], c :: line, br, after, hline.behind_char hbreak⟩
    | succ k =>
      obtain ⟨before, line, br, after, hline⟩ := ih (k := k + 1) h
      exact ⟨c :: before, line, br, after, hline.behind_line hbreak⟩

/-! ## Lines of a text -/

/-- The parts of a text around one of its lines. -/
structure IsLine (t : Text) (l : Nat) (before line br after : Text) : Prop where
  text_eq : t = before ++ (line ++ (br ++ after))
  start : (LineIndex.ofText t).lineStart? l = some (size before)
  unbroken : ∀ c ∈ line, isLineBreak c = false
  next : br = [] ∧ after = [] ∧ (LineIndex.ofText t).lineStart? (l + 1) = none ∨
    IsBreak br after ∧
      (LineIndex.ofText t).lineStart? (l + 1) = some (size before + size line + size br)

variable {l : Nat}

theorem exists_isLine (h : (LineIndex.ofText t).lineStart? l = some start) :
    ∃ before line br after, t.IsLine l before line br after ∧ start = size before := by
  cases l with
  | zero => cases h
  | succ k =>
    obtain ⟨before, line, br, after, htext, hstart, hline, hnext⟩ := exists_isLineAfter h
    rw [Nat.zero_add] at hstart
    subst hstart
    exact ⟨before, line, br, after, ⟨htext, h, hline, hnext⟩, rfl⟩

theorem IsLine.size_eq (h : t.IsLine l before line br after) :
    size t = size before + size line + size br + size after := by
  rw [h.text_eq]
  simp only [size_append]
  omega

theorem IsLine.dropBytes?_eq (h : t.IsLine l before line br after) :
    t.dropBytes? (size before) = some (line ++ (br ++ after)) := by
  rw [h.text_eq, dropBytes?_size_append]

theorem IsLine.firstLine_eq (h : t.IsLine l before line br after) :
    firstLine (line ++ (br ++ after)) = line := by
  have hnext : firstLine (br ++ after) = [] := by
    rcases h.next with ⟨rfl, rfl, -⟩ | ⟨rfl | rfl | ⟨rfl, -⟩, -⟩ <;> rfl
  rw [firstLine_append_of_unbroken h.unbroken, hnext, List.append_nil]

/-- The line that starts at the end of a text has no span, unless it is the first. -/
theorem IsLine.lineSpan?_eq (h : t.IsLine l before line br after) :
    t.lineSpan? l = if size before = size t ∧ 1 < l then none
      else some (Span.sized (size before) (size line)) := by
  rw [lineSpan?, h.start, Option.bind_some, h.dropBytes?_eq, Option.getD_some, h.firstLine_eq]

theorem IsLine.slice?_line (h : t.IsLine l before line br after) :
    t.slice? (Span.sized (size before) (size line)) = some line := by
  rw [h.text_eq, ← List.append_assoc, slice?_append]

theorem IsLine.slice?_break (h : t.IsLine l before line br after) :
    t.slice? (Span.sized (size before + size line) (size br)) = some br := by
  rw [h.text_eq, ← List.append_assoc, ← List.append_assoc, ← size_append, slice?_append]

theorem IsBreak.size_eq (h : IsBreak br after) : size br = 1 ∨ size br = 2 := by
  rcases h with rfl | rfl | ⟨rfl, -⟩ <;> decide

theorem IsBreak.size_pos (h : IsBreak br after) : 0 < size br := by
  have := h.size_eq
  omega

end Text

/-! ## Starts in order -/

namespace LineIndex

open Text

variable {t : Text} {offset l : Nat}

theorem isChain_lineStartsAfter :
    (offset :: lineStartsAfter offset t).IsChain (· < ·) := by
  fun_induction lineStartsAfter offset t with
  | case1 offset => exact .singleton offset
  | case2 offset t ih => exact .cons_cons (by omega) ih
  | case3 offset c t _ _ ih => exact .cons_cons (by omega) ih
  | case4 offset c t _ _ ih =>
    have hc := c.utf8Size_pos
    exact ih.imp_head fun h => by omega

theorem pairwise_starts (t : Text) : (ofText t).starts.Pairwise (· < ·) :=
  List.isChain_iff_pairwise.mp isChain_lineStartsAfter

/-- The line of an offset is the number of lines that start at or before it, whichever arm of the
search gives it. -/
theorem lineOf_eq_countP :
    (ofText t).lineOf offset = (ofText t).starts.countP (· ≤ min offset (Text.size t)) := by
  have hstarts := pairwise_starts t
  have hsize : (ofText t).size = Text.size t := rfl
  rw [lineOf, hsize, binarySearch_eq hstarts, countP_le_eq (hstarts.imp ne_of_lt)]
  by_cases hmem : min offset (Text.size t) ∈ (ofText t).starts
  · rw [if_pos hmem, if_pos hmem]
  · rw [if_neg hmem, if_neg hmem]
    rfl

theorem mem_starts_of_lineStart? {start : Nat} (h : (ofText t).lineStart? l = some start) :
    start ∈ (ofText t).starts := by
  cases l with
  | zero => cases h
  | succ k => exact List.mem_of_getElem? h

theorem lineStart?_eq_some_le {start : Nat} (h : (ofText t).lineStart? l = some start) :
    start ≤ Text.size t := by
  obtain ⟨before, line, br, after, hline, rfl⟩ := exists_isLine h
  have hsize := hline.size_eq
  omega

/-- As many lines start at or before an offset as its line has lines in front of it, and itself. -/
theorem le_lineOf_iff (hl : 0 < l) :
    l ≤ (ofText t).lineOf offset ↔
      ∃ start, (ofText t).lineStart? l = some start ∧ start ≤ offset := by
  obtain ⟨k, rfl⟩ : ∃ k, l = k + 1 := ⟨l - 1, by omega⟩
  rw [lineOf_eq_countP, Nat.succ_le_iff, lt_countP_iff (pairwise_starts t)]
  refine exists_congr fun start => and_congr_right fun h => ?_
  have hsize := lineStart?_eq_some_le (l := k + 1) h
  omega

theorem lineStart?_one : (ofText t).lineStart? 1 = some 0 := rfl

theorem lineOf_pos : 0 < (ofText t).lineOf offset :=
  (le_lineOf_iff Nat.one_pos).mpr ⟨0, lineStart?_one, Nat.zero_le offset⟩

/-! ## The line of an offset -/

/-- The line starts at or before the offset, and the next one, if there is one, behind it. -/
structure OnLine (index : LineIndex) (l offset : Nat) : Prop where
  begins : ∃ start, index.lineStart? l = some start ∧ start ≤ offset
  ends : ∀ next, index.lineStart? (l + 1) = some next → offset < next

theorem onLine_iff : (ofText t).OnLine l offset ↔ l = (ofText t).lineOf offset := by
  constructor
  · rintro ⟨⟨start, hstart, hle⟩, hends⟩
    have hpos : 0 < l := by
      rw [Nat.pos_iff_ne_zero]
      rintro rfl
      cases hstart
    have hreaches := (le_lineOf_iff hpos).mpr ⟨start, hstart, hle⟩
    have hstops : ¬ l + 1 ≤ (ofText t).lineOf offset := by
      rw [le_lineOf_iff (Nat.succ_pos l)]
      rintro ⟨next, hnext, hbefore⟩
      have := hends next hnext
      omega
    omega
  · rintro rfl
    refine ⟨(le_lineOf_iff lineOf_pos).mp le_rfl, fun next hnext => ?_⟩
    by_contra hbefore
    have hreaches := (le_lineOf_iff (Nat.succ_pos _)).mpr ⟨next, hnext, not_lt.mp hbefore⟩
    omega

theorem onLine_lineOf (t : Text) (offset : Nat) :
    (ofText t).OnLine ((ofText t).lineOf offset) offset :=
  onLine_iff.mpr rfl

theorem lineOf_mono {other : Nat} (h : offset ≤ other) :
    (ofText t).lineOf offset ≤ (ofText t).lineOf other := by
  obtain ⟨start, hstart, hle⟩ := (onLine_lineOf t offset).begins
  exact (le_lineOf_iff lineOf_pos).mpr ⟨start, hstart, by omega⟩

end LineIndex

end Verbatim
