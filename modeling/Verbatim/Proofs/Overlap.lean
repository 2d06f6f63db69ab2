import Verbatim.Span

/-!
# Spans that overlap

Overlap is decided by the bounds of two spans, and for spans that are not empty it says that they
share a byte. An empty span has no byte to share; all the same it overlaps a span that reaches past
it on both sides.
-/

namespace Verbatim.Span

variable {a b : Span}

/-- The spans share a byte. -/
def Meets (a b : Span) : Prop :=
  ∃ offset, a.containsOffset offset = true ∧ b.containsOffset offset = true

/-- The span is empty, and the other reaches past it on both sides. -/
def LiesInside (a b : Span) : Prop :=
  a.isEmpty = true ∧ b.start < a.start ∧ a.stop < b.stop

/-- What two spans share lies between the greater start and the lesser stop. -/
theorem meets_iff : a.Meets b ↔ max a.start b.start < min a.stop b.stop := by
  constructor
  · rintro ⟨offset, ha, hb⟩
    rw [containsOffset_iff] at ha hb
    omega
  · intro h
    refine ⟨max a.start b.start, containsOffset_iff.mpr ?_, containsOffset_iff.mpr ?_⟩
    · exact ⟨Nat.le_max_left _ _, by omega⟩
    · exact ⟨Nat.le_max_right _ _, by omega⟩

theorem meets_iff_overlaps :
    a.Meets b ↔ a.overlaps b = true ∧ a.isEmpty = false ∧ b.isEmpty = false := by
  rw [meets_iff, overlaps_iff, isEmpty_eq_false_iff, isEmpty_eq_false_iff]
  omega

theorem LiesInside.overlaps (h : a.LiesInside b) : a.overlaps b = true := by
  obtain ⟨hempty, hstart, hstop⟩ := h
  rw [isEmpty_iff] at hempty
  rw [overlaps_iff]
  omega

/-- An empty span overlaps those that it lies inside of, and no others. -/
theorem liesInside_of_isEmpty (ha : a.isEmpty = true) (h : a.overlaps b = true) :
    a.LiesInside b := by
  rw [overlaps_iff] at h
  have hempty := isEmpty_iff.mp ha
  exact ⟨ha, by omega, by omega⟩

/-- A cover has the bytes of both spans, those that they share only once, and the gap if there is
one. -/
theorem size_cover_lt_iff : (a.cover b).size < a.size + b.size ↔ a.Meets b := by
  have ha := a.start_le_stop
  have hb := b.start_le_stop
  rw [meets_iff]
  simp only [size, cover]
  omega

/-- Two spans overlap if they share a byte, and besides only if one of them is empty and lies
inside the other. They share a byte just if they overlap and neither is empty, and just if their
cover is shorter than both together. -/
theorem overlaps_iff_meets_or (a b : Span) :
    (a.overlaps b = true ↔ a.Meets b ∨ a.LiesInside b ∨ b.LiesInside a) ∧
      (a.Meets b ↔ a.overlaps b = true ∧ a.isEmpty = false ∧ b.isEmpty = false) ∧
      (a.Meets b ↔ (a.cover b).size < a.size + b.size) ∧
      a.overlaps b = b.overlaps a := by
  refine ⟨⟨fun h => ?_, ?_⟩, meets_iff_overlaps, size_cover_lt_iff.symm, overlaps_comm a b⟩
  · cases ha : a.isEmpty with
    | true => exact .inr (.inl (liesInside_of_isEmpty ha h))
    | false =>
      cases hb : b.isEmpty with
      | true => exact .inr (.inr (liesInside_of_isEmpty hb (overlaps_comm b a ▸ h)))
      | false => exact .inl (meets_iff_overlaps.mpr ⟨h, ha, hb⟩)
  · rintro (hmeets | hinside | hinside)
    · exact (meets_iff_overlaps.mp hmeets).1
    · exact hinside.overlaps
    · rw [overlaps_comm]
      exact hinside.overlaps

/-- An empty span inside another overlaps it without a byte in common, and their cover is as long
as both together. -/
theorem empty_overlaps_around :
    (empty 3).overlaps (sized 0 10) = true ∧ ¬ (empty 3).Meets (sized 0 10) ∧
      ((empty 3).cover (sized 0 10)).size = (empty 3).size + (sized 0 10).size := by
  rw [meets_iff]
  decide

end Verbatim.Span
