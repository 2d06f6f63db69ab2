/-!
# Sets of characters given by ranges

A character property of the Unicode standard is a finite union of intervals of code
points. The tables of this library list the intervals above the ASCII block in
increasing order; the ASCII part of each property is decided by a direct test, so
that plain source text never touches a table.
-/

namespace Verbatim.Unicode

abbrev Ranges := List (Nat × Nat)

def Ranges.contains (ranges : Ranges) (c : Char) : Bool :=
  ranges.any fun range => range.1 ≤ c.toNat && c.toNat ≤ range.2

theorem Ranges.contains_iff {ranges : Ranges} {c : Char} :
    ranges.contains c ↔ ∃ range ∈ ranges, range.1 ≤ c.toNat ∧ c.toNat ≤ range.2 := by
  simp [Ranges.contains]

def isAscii (c : Char) : Bool :=
  c.toNat < 0x80

end Verbatim.Unicode
