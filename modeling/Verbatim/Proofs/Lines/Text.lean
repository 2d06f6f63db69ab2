import Verbatim.Proofs.Scanner.Cut

/-!
# Where line breaks stop

A text is cut behind a line break if a line feed stands in front of the cut, or a carriage return
that no line feed follows. The line index has the place of each of these cuts, and no other. Which
cuts of a piece of a text are behind a line break depends on the piece and on the one character
that follows it.
-/

namespace Verbatim

namespace Text

/-- A text that is cut in two is cut right behind a line break. -/
def BreaksBetween (before after : Text) : Prop :=
  before.getLast? = some '\n' ∨ before.getLast? = some '\r' ∧ after.head? ≠ some '\n'

/-- A line break of the text stops at a byte offset. -/
def LineBreakStopsAt (t : Text) (p : Nat) : Prop :=
  ∃ before after, t = before ++ after ∧ size before = p ∧ BreaksBetween before after

/-- The same for a text that begins at an offset. -/
def LineBreakStopsAfter (offset : Nat) (t : Text) (p : Nat) : Prop :=
  ∃ before after, t = before ++ after ∧ offset + size before = p ∧ BreaksBetween before after

variable {t u w before after : Text} {c : Char} {offset p : Nat}

theorem BreaksBetween.ne_nil (h : BreaksBetween before after) : before ≠ [] := by
  rintro rfl
  rcases h with h | h
  · cases h
  · cases h.1

/-- What stands further in front does not matter. -/
theorem breaksBetween_append (h : t ≠ []) :
    BreaksBetween (w ++ t) after ↔ BreaksBetween t after := by
  obtain ⟨init, d, rfl⟩ := List.eq_nil_or_concat t |>.resolve_left h
  simp [BreaksBetween]

theorem breaksBetween_cons (h : t ≠ []) :
    BreaksBetween (c :: t) after ↔ BreaksBetween t after :=
  breaksBetween_append (w := [c]) h

theorem breaksBetween_singleton :
    BreaksBetween [c] after ↔ c = '\n' ∨ c = '\r' ∧ after.head? ≠ some '\n' := by
  simp [BreaksBetween]

/-- A line break ends with a character that breaks lines. -/
theorem BreaksBetween.exists_mem (h : BreaksBetween before after) :
    ∃ c ∈ before, isLineBreak c = true := by
  rcases h with h | ⟨h, -⟩
  · exact ⟨'\n', List.mem_of_getLast? h, rfl⟩
  · exact ⟨'\r', List.mem_of_getLast? h, rfl⟩

theorem append_inj_of_size {t' u' : Text} (h : t ++ u = t' ++ u')
    (hsize : size t = size t') : t = t' ∧ u = u' := by
  have hdrop := congrArg (dropBytes? (size t)) h
  rw [dropBytes?_size_append, hsize, dropBytes?_size_append] at hdrop
  obtain rfl := Option.some.inj hdrop
  exact ⟨List.append_cancel_right h, rfl⟩

/-! ## The line index -/

theorem not_lineBreakStopsAfter_nil : ¬ LineBreakStopsAfter offset [] p := by
  rintro ⟨before, after, hnil, -, hbreak⟩
  exact hbreak.ne_nil (List.append_eq_nil_iff.mp hnil.symm).1

/-- A line break stops behind the first character, or further on. -/
theorem lineBreakStopsAfter_cons :
    LineBreakStopsAfter offset (c :: t) p ↔
      offset + c.utf8Size = p ∧ BreaksBetween [c] t ∨
        LineBreakStopsAfter (offset + c.utf8Size) t p := by
  constructor
  · rintro ⟨before, after, ht, hp, hbreak⟩
    obtain ⟨d, before, rfl⟩ := List.exists_cons_of_ne_nil hbreak.ne_nil
    obtain ⟨rfl, rfl⟩ := List.cons.inj ht
    rw [size_cons, ← Nat.add_assoc] at hp
    by_cases hbefore : before = []
    · subst hbefore
      exact .inl ⟨hp, hbreak⟩
    · exact .inr ⟨before, after, rfl, hp, (breaksBetween_cons hbefore).mp hbreak⟩
  · rintro (⟨hp, hbreak⟩ | ⟨before, after, rfl, hp, hbreak⟩)
    · exact ⟨[c], t, rfl, hp, hbreak⟩
    · refine ⟨c :: before, after, rfl, ?_, (breaksBetween_cons hbreak.ne_nil).mpr hbreak⟩
      rw [size_cons, ← Nat.add_assoc, hp]

theorem mem_lineStartsAfter :
    p ∈ lineStartsAfter offset t ↔ LineBreakStopsAfter offset t p := by
  fun_induction lineStartsAfter offset t with
  | case1 => simp [not_lineBreakStopsAfter_nil]
  | case2 offset t ih =>
    have hr : '\r'.utf8Size = 1 := rfl
    have hn : '\n'.utf8Size = 1 := rfl
    rw [lineBreakStopsAfter_cons, lineBreakStopsAfter_cons, breaksBetween_singleton,
      breaksBetween_singleton, List.mem_cons, ih]
    simp [hr, hn, eq_comm]
  | case3 offset c t hpair hbreak ih =>
    rw [isLineBreak, Bool.or_eq_true, beq_iff_eq, beq_iff_eq] at hbreak
    have hsize : c.utf8Size = 1 := by rcases hbreak with rfl | rfl <;> rfl
    have hsingle : BreaksBetween [c] t := by
      refine breaksBetween_singleton.mpr (hbreak.symm.imp_right fun hr => ⟨hr, fun hhead => ?_⟩)
      obtain ⟨u, rfl⟩ := List.head?_eq_some_iff.mp hhead
      exact hpair u hr rfl
    simp [lineBreakStopsAfter_cons, hsingle, hsize, ih, eq_comm]
  | case4 offset c t hpair hbreak ih =>
    have hsingle : ¬ BreaksBetween [c] t := by
      intro h
      obtain ⟨d, hd, hdbreak⟩ := h.exists_mem
      rw [List.mem_singleton.mp hd] at hdbreak
      exact hbreak hdbreak
    simp [lineBreakStopsAfter_cons, hsingle, ih]

theorem lineBreakStopsAfter_zero : LineBreakStopsAfter 0 t p ↔ t.LineBreakStopsAt p := by
  simp only [LineBreakStopsAfter, LineBreakStopsAt, Nat.zero_add]

theorem mem_starts_iff (hp : 0 < p) :
    p ∈ (LineIndex.ofText t).starts ↔ t.LineBreakStopsAt p := by
  rw [LineIndex.ofText, List.mem_cons, or_iff_right hp.ne', mem_lineStartsAfter,
    lineBreakStopsAfter_zero]

/-! ## Pieces of a text -/

/-- Where line breaks stop in a piece of a text: at its end just if `ends` holds, and further in
front only if `reaches` holds. -/
structure Lined (ends reaches : Prop) (w after : Text) : Prop where
  stop : BreaksBetween w after ↔ ends
  inside : ∀ front back, w = front ++ back → back ≠ [] → BreaksBetween front (back ++ after) →
    reaches

variable {ends reaches : Prop}

theorem lined_of_unbroken (h : ∀ c ∈ w, isLineBreak c = false) (hends : ¬ ends) :
    Lined ends reaches w after := by
  have hnone {front after : Text} (hfront : front ⊆ w) : ¬ BreaksBetween front after := by
    intro hbreak
    obtain ⟨c, hc, hcbreak⟩ := hbreak.exists_mem
    rw [h c (hfront hc)] at hcbreak
    cases hcbreak
  constructor
  · exact iff_of_false (hnone (List.Subset.refl w)) hends
  · rintro front back rfl - hbreak
    exact absurd hbreak (hnone (List.subset_append_left front back))

theorem lined_of_getLast? (h : w.getLast? = some c) (hc : isLineBreak c = false) (hends : ¬ ends)
    (hreaches : reaches) : Lined ends reaches w after := by
  refine ⟨iff_of_false ?_ hends, fun _ _ _ _ _ => hreaches⟩
  rintro (hlast | ⟨hlast, -⟩)
  · obtain rfl := Option.some.inj (h.symm.trans hlast)
    cases hc
  · obtain rfl := Option.some.inj (h.symm.trans hlast)
    cases hc

theorem lined_singleton (h : BreaksBetween [c] after) (hends : ends) :
    Lined ends reaches [c] after := by
  refine ⟨iff_of_true h hends, fun front back hw hback hbreak => ?_⟩
  obtain ⟨d, front, rfl⟩ := List.exists_cons_of_ne_nil hbreak.ne_nil
  have hnil := (List.cons.inj hw).2
  exact absurd (List.append_eq_nil_iff.mp hnil.symm).2 hback

theorem Lined.cons (h : Lined ends reaches w after) (hw : w ≠ [])
    (hc : ¬ BreaksBetween [c] (w ++ after)) : Lined ends reaches (c :: w) after := by
  constructor
  · rw [breaksBetween_cons hw, h.stop]
  · intro front back heq hback hbreak
    obtain ⟨d, front, rfl⟩ := List.exists_cons_of_ne_nil hbreak.ne_nil
    obtain ⟨rfl, rfl⟩ := List.cons.inj heq
    by_cases hfront : front = []
    · subst hfront
      exact absurd hbreak hc
    · exact h.inside front back rfl hback ((breaksBetween_cons hfront).mp hbreak)

/-- A pair is one line break, also for the text in front of it. -/
theorem lined_of_isBreak (h : IsBreak w after) (hends : ends) : Lined ends reaches w after := by
  rcases h with rfl | rfl | ⟨rfl, hafter⟩
  · exact lined_singleton (.inl rfl) hends
  · have hline : Lined ends reaches ['\n'] after := lined_singleton (.inl rfl) hends
    exact hline.cons (List.cons_ne_nil _ _) (by simp [breaksBetween_singleton])
  · exact lined_singleton (.inr ⟨rfl, hafter⟩) hends

theorem lined_of_isBreak_backslash (h : IsBreak w after) (hends : ends) :
    Lined ends reaches ('\\' :: w) after :=
  (lined_of_isBreak h hends).cons h.endsLine.ne_nil (by simp [breaksBetween_singleton])

end Text

end Verbatim
