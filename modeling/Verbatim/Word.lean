/-!
# Words

Offsets, line numbers and columns are words: numbers of 32 bits without a sign. A sum or a
product that is too great for a word wraps around.
-/

namespace Verbatim

/-- A number as a word holds it. -/
def wrap (n : Nat) : Nat :=
  n % UInt32.size

theorem wrap_lt (n : Nat) : wrap n < UInt32.size :=
  Nat.mod_lt n (by decide)

theorem wrap_of_lt {n : Nat} (h : n < UInt32.size) : wrap n = n :=
  Nat.mod_eq_of_lt h

theorem wrap_size_add {n : Nat} (h : n < UInt32.size) : wrap (UInt32.size + n) = n := by
  rw [wrap, Nat.add_mod_left, Nat.mod_eq_of_lt h]

end Verbatim
