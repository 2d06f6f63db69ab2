import Verbatim.Text

/-!
# Where a text can be cut

A slice exists for a span between two places where characters meet, and for no other.
-/

namespace Verbatim.Text

def IsBoundary (t : Text) (offset : Nat) : Prop :=
  ∃ before after, t = before ++ after ∧ offset = size before

theorem eq_nil_of_size_eq_zero {t : Text} (h : size t = 0) : t = [] := by
  cases t with
  | nil => rfl
  | cons c t =>
    have := c.utf8Size_pos
    simp only [size_cons] at h
    omega

theorem take_length_takeWhile (p : Char → Bool) (t : Text) :
    t.take (t.takeWhile p).length = t.takeWhile p :=
  (List.prefix_iff_eq_take.mp (List.takeWhile_prefix p)).symm

theorem dropBytes?_eq_some {n : Nat} {t u : Text} (h : dropBytes? n t = some u) :
    ∃ before, t = before ++ u ∧ size before = n := by
  fun_induction dropBytes? n t with
  | case1 t =>
    cases h
    exact ⟨[], rfl, rfl⟩
  | case2 => cases h
  | case3 n c t hc ih =>
    obtain ⟨before, rfl, hsize⟩ := ih h
    refine ⟨c :: before, rfl, ?_⟩
    rw [size_cons, hsize]
    omega
  | case4 => cases h

theorem takeBytes?_eq_some {n : Nat} {t u : Text} (h : takeBytes? n t = some u) :
    ∃ after, t = u ++ after ∧ size u = n := by
  fun_induction takeBytes? n t generalizing u with
  | case1 t =>
    cases h
    exact ⟨t, rfl, rfl⟩
  | case2 => cases h
  | case3 n c t hc ih =>
    obtain ⟨v, hv, rfl⟩ := Option.map_eq_some_iff.mp h
    obtain ⟨after, rfl, hsize⟩ := ih hv
    refine ⟨after, rfl, ?_⟩
    rw [size_cons, hsize]
    omega
  | case4 => cases h

theorem slice?_eq_some {t u : Text} {a : Span} (h : t.slice? a = some u) :
    ∃ before after, t = before ++ u ++ after ∧ a.start = size before ∧
      a.stop = size (before ++ u) := by
  obtain ⟨v, hdrop, htake⟩ := Option.bind_eq_some_iff.mp h
  obtain ⟨before, rfl, hbefore⟩ := dropBytes?_eq_some hdrop
  obtain ⟨after, rfl, hsize⟩ := takeBytes?_eq_some htake
  refine ⟨before, after, by rw [List.append_assoc], hbefore.symm, ?_⟩
  have := a.start_le_stop
  rw [size_append, hbefore, hsize, Span.size]
  omega

theorem isBoundary_of_slice? {t u : Text} {a : Span} (h : t.slice? a = some u) :
    t.IsBoundary a.start ∧ t.IsBoundary a.stop := by
  obtain ⟨before, after, ht, hstart, hstop⟩ := slice?_eq_some h
  constructor
  · exact ⟨before, u ++ after, by rw [ht, List.append_assoc], hstart⟩
  · exact ⟨before ++ u, after, ht, hstop⟩

/-- Of two cuts through one text the one at fewer bytes leaves a piece up to the other. -/
theorem exists_append_of_size_le {before rest whole after : Text}
    (h : before ++ rest = whole ++ after) (hle : size before ≤ size whole) :
    ∃ u, whole = before ++ u ∧ rest = u ++ after := by
  rcases List.append_eq_append_iff.mp h with ⟨u, hu, hrest⟩ | ⟨u, hu, hafter⟩
  · exact ⟨u, hu, hrest⟩
  · rw [hu, size_append] at hle
    have hnil := eq_nil_of_size_eq_zero (t := u) (by omega)
    rw [hnil] at hu hafter
    exact ⟨[], by simpa using hu.symm, by simpa using hafter.symm⟩

/-- Between two places where the text can be cut there is a slice. -/
theorem slice?_of_isBoundary {t : Text} {a : Span} (hstart : t.IsBoundary a.start)
    (hstop : t.IsBoundary a.stop) : (t.slice? a).isSome = true := by
  obtain ⟨before, rest, rfl, hbefore⟩ := hstart
  obtain ⟨whole, after, heq, hwhole⟩ := hstop
  have hle : size before ≤ size whole := by
    rw [← hbefore, ← hwhole]
    exact a.start_le_stop
  obtain ⟨u, rfl, hrest⟩ := exists_append_of_size_le heq hle
  have hspan : a = Span.sized (size before) (size u) := by
    obtain ⟨start, stop, hle⟩ := a
    simp only [Span.sized, size_append] at hbefore hwhole ⊢
    subst hbefore hwhole
    rfl
  rw [hspan, hrest, ← List.append_assoc, slice?_append]
  rfl

theorem IsBoundary.slice?_empty {t : Text} {offset : Nat} (h : t.IsBoundary offset) :
    t.slice? (Span.empty offset) = some [] := by
  obtain ⟨before, after, rfl, rfl⟩ := h
  have hslice := slice?_append before [] after
  rwa [List.append_nil] at hslice

end Verbatim.Text
