/-!
# Half-open byte ranges

A span is an interval `[start, stop)` of byte offsets. Its bounds are ordered by
construction; `Span.between` is the one way in from two arbitrary offsets, and it
refuses an inverted pair.
-/

namespace Verbatim

structure Span where
  start : Nat
  stop : Nat
  start_le_stop : start ≤ stop
deriving DecidableEq, Repr

structure InvertedBounds where
  start : Nat
  stop : Nat
deriving DecidableEq, Repr

namespace InvertedBounds

def message (bounds : InvertedBounds) : String :=
  s!"Span start ({bounds.start}) must be <= end ({bounds.stop})"

end InvertedBounds

namespace Span

def between (start stop : Nat) : Except InvertedBounds Span :=
  if h : start ≤ stop then .ok ⟨start, stop, h⟩ else .error ⟨start, stop⟩

def empty (offset : Nat) : Span :=
  ⟨offset, offset, Nat.le_refl offset⟩

def sized (start size : Nat) : Span :=
  ⟨start, start + size, Nat.le_add_right start size⟩

/-- The span from an offset up to another, empty if the other is before it. -/
def upTo (start stop : Nat) : Span :=
  ⟨start, max stop start, Nat.le_max_right stop start⟩

def size (a : Span) : Nat :=
  a.stop - a.start

def isEmpty (a : Span) : Bool :=
  a.start == a.stop

/-- Two spans overlap when they share a byte; neighbours do not. -/
def overlaps (a b : Span) : Bool :=
  a.start < b.stop && b.start < a.stop

def contains (a b : Span) : Bool :=
  a.start ≤ b.start && b.stop ≤ a.stop

def containsOffset (a : Span) (offset : Nat) : Bool :=
  a.start ≤ offset && offset < a.stop

def cover (a b : Span) : Span :=
  ⟨min a.start b.start, max a.stop b.stop, by
    have := a.start_le_stop
    have := b.start_le_stop
    omega⟩

def display (a : Span) : String :=
  s!"[{a.start}, {a.stop})"

theorem between_start_stop (a : Span) : between a.start a.stop = .ok a := by
  simp [between, a.start_le_stop]

theorem isEmpty_iff {a : Span} : a.isEmpty = true ↔ a.start = a.stop := by
  simp [isEmpty]

theorem isEmpty_eq_false_iff {a : Span} : a.isEmpty = false ↔ a.start < a.stop := by
  have := a.start_le_stop
  rw [← Bool.not_eq_true, isEmpty_iff]
  omega

theorem overlaps_iff {a b : Span} :
    a.overlaps b = true ↔ a.start < b.stop ∧ b.start < a.stop := by
  simp [overlaps]

theorem overlaps_comm (a b : Span) : a.overlaps b = b.overlaps a :=
  Bool.and_comm _ _

theorem contains_iff {a b : Span} : a.contains b ↔ a.start ≤ b.start ∧ b.stop ≤ a.stop := by
  simp [contains]

theorem containsOffset_iff {a : Span} {offset : Nat} :
    a.containsOffset offset ↔ a.start ≤ offset ∧ offset < a.stop := by
  simp [containsOffset]

theorem contains_refl (a : Span) : a.contains a := by
  simp [contains]

theorem contains_trans {a b c : Span} (hab : a.contains b) (hbc : b.contains c) :
    a.contains c := by
  rw [contains_iff] at *
  omega

theorem cover_contains_left (a b : Span) : (a.cover b).contains a := by
  rw [contains_iff]
  exact ⟨Nat.min_le_left _ _, Nat.le_max_left _ _⟩

theorem cover_contains_right (a b : Span) : (a.cover b).contains b := by
  rw [contains_iff]
  exact ⟨Nat.min_le_right _ _, Nat.le_max_right _ _⟩

theorem contains_cover {a b c : Span} (hb : a.contains b) (hc : a.contains c) :
    a.contains (b.cover c) := by
  rw [contains_iff] at *
  simp only [cover]
  omega

end Span

end Verbatim
