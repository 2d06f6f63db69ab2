import Verbatim.Span

/-!
# Source text measured in bytes

Text is a list of characters; every offset into it counts the bytes of its UTF-8
form. A byte offset that does not fall between two characters cuts nothing: the
slicing functions answer `none` there, as they do past the end.
-/

namespace Verbatim

abbrev Text := List Char

namespace Text

def size : Text → Nat
  | [] => 0
  | c :: t => c.utf8Size + size t

@[simp]
theorem size_nil : size [] = 0 := rfl

@[simp]
theorem size_cons (c : Char) (t : Text) : size (c :: t) = c.utf8Size + size t := rfl

@[simp]
theorem size_append (t u : Text) : size (t ++ u) = size t + size u := by
  induction t with
  | nil => simp
  | cons c t ih => simp [ih, Nat.add_assoc]

theorem length_le_size (t : Text) : t.length ≤ size t := by
  induction t with
  | nil => simp
  | cons c t ih =>
    have := c.utf8Size_pos
    simp only [List.length_cons, size_cons]
    omega

/-- The text after the first `n` bytes, when a character begins or the text ends there. -/
def dropBytes? : Nat → Text → Option Text
  | 0, t => some t
  | _ + 1, [] => none
  | n + 1, c :: t => if c.utf8Size ≤ n + 1 then dropBytes? (n + 1 - c.utf8Size) t else none

/-- The first `n` bytes, when a character begins or the text ends after them. -/
def takeBytes? : Nat → Text → Option Text
  | 0, _ => some []
  | _ + 1, [] => none
  | n + 1, c :: t =>
    if c.utf8Size ≤ n + 1 then (takeBytes? (n + 1 - c.utf8Size) t).map (c :: ·) else none

def slice? (t : Text) (a : Span) : Option Text :=
  (dropBytes? a.start t).bind (takeBytes? a.size)

theorem dropBytes?_size_append (t u : Text) : dropBytes? (size t) (t ++ u) = some u := by
  induction t with
  | nil => simp [dropBytes?]
  | cons c t ih =>
    have hc := c.utf8Size_pos
    obtain ⟨n, hn⟩ : ∃ n, size (c :: t) = n + 1 := ⟨size (c :: t) - 1, by simp; omega⟩
    rw [hn, List.cons_append, dropBytes?]
    simp only [size_cons] at hn
    rw [if_pos (by omega), show n + 1 - c.utf8Size = size t by omega, ih]

theorem takeBytes?_size_append (t u : Text) : takeBytes? (size t) (t ++ u) = some t := by
  induction t with
  | nil => simp [takeBytes?]
  | cons c t ih =>
    have hc := c.utf8Size_pos
    obtain ⟨n, hn⟩ : ∃ n, size (c :: t) = n + 1 := ⟨size (c :: t) - 1, by simp; omega⟩
    rw [hn, List.cons_append, takeBytes?]
    simp only [size_cons] at hn
    rw [if_pos (by omega), show n + 1 - c.utf8Size = size t by omega, ih]
    rfl

theorem slice?_append (t u v : Text) :
    slice? (t ++ u ++ v) (Span.sized (size t) (size u)) = some u := by
  have hsize : (Span.sized (size t) (size u)).size = size u := by
    simp [Span.size, Span.sized]
  rw [slice?, hsize, Span.sized, List.append_assoc, dropBytes?_size_append, Option.bind_some,
    takeBytes?_size_append]

end Text

end Verbatim
