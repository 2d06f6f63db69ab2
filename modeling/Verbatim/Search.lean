/-!
# Binary search

A number is looked for in a row in increasing order by halving, again and again, the part of the
row in which it can be. The answer is the place where it stands or, as the other arm, the place at
which it would have to be put in to keep the order.
-/

namespace Verbatim

/-- The last of some places in a row, `size` of them from `base` on, at which no number greater than
`x` stands, or the first of them. Each turn keeps one of two halves. -/
def narrow (row : List Nat) (x : Nat) : Nat → Nat → Nat → Nat
  | 0, base, _ => base
  | turns + 1, base, size =>
    if 1 < size then
      let middle := base + size / 2
      narrow row x turns (if x < row.getD middle 0 then base else middle) (size - size / 2)
    else base

def binarySearch (row : List Nat) (x : Nat) : Except Nat Nat :=
  let place := narrow row x row.length 0 row.length
  match row[place]? with
  | none => .error 0
  | some found =>
    if found = x then .ok place
    else if found < x then .error (place + 1)
    else .error place

end Verbatim
